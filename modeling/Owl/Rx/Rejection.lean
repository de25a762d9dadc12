import Owl.Rx.Isolation

/-! # Rejected TLVs

A handler that reads a field straight into the record of the sender leaves it
there when a later field is cut off. The handlers of both election TLVs and of the
data path state do so; the others read everything first. A rejected TLV thus
changes nothing exactly if the fields in front of the cut repeat what the record
says (`awdlHandleTlv_rejected_iff`).
-/

namespace Owl

/-- A handler leaves the record alone when it rejects its value. -/
def RejectsCleanly (src : AwdlPeer) (handled : RxResult × AwdlPeer) : Prop :=
  handled.1.code < 0 → handled.2 = src

section Outcomes

variable {src after : AwdlPeer}

theorem rejectsCleanly_unchanged (result : RxResult) : RejectsCleanly src (result, src) :=
  fun _ => rfl

theorem rejectsCleanly_ok : RejectsCleanly src (.ok, after) :=
  fun rejected => absurd rejected (Int.lt_irrefl 0)

theorem rejectsCleanly_tooShort : RejectsCleanly src (.tooShort, after) ↔ after = src :=
  ⟨fun clean => clean (show (-3 : Int) < 0 by decide), fun same _ => same⟩

end Outcomes

/-- A field that can be read has the value that is stored already. -/
def Repeats {α : Type} (read : Option α) (stored : α) : Prop :=
  ∀ value, read = some value → value = stored

theorem repeats_iff {α : Type} (read : Option α) (stored : α) :
    Repeats read stored ↔ read.getD stored = stored := by
  cases read with
  | none => exact iff_of_true (fun value found => (by cases found)) rfl
  | some value =>
      refine ⟨fun all => all value rfl, fun same other again => ?_⟩
      cases again
      exact same

/-- A read that ends inside the window succeeds. -/
theorem exists_read {α : Type} {read : Option α} {len bound : Nat}
    (short : read = none ↔ len < bound) (inside : bound ≤ len) : ∃ value, read = some value :=
  Option.ne_none_iff_exists'.mp fun missing => Nat.not_lt.mpr inside (short.mp missing)

/-- A handler whose value has all fields does not fail at a read of one of them. -/
theorem checkedRead_bounded {α : Type} {read : Option α} {src : AwdlPeer}
    {next : α → RxResult × AwdlPeer} {len bound total : Nat} (short : read = none ↔ len < bound)
    (within : bound ≤ total) (later : ∀ value, (next value).1.code < 0 → len < total)
    (rejected : (checkedRead read src next).1.code < 0) : len < total := by
  cases read with
  | none => exact Nat.lt_of_lt_of_le (short.mp rfl) within
  | some value => exact later value rejected

theorem not_rejected_ok {src : AwdlPeer} {len total : Nat}
    (rejected : ((RxResult.ok, src) : RxResult × AwdlPeer).1.code < 0) : len < total :=
  absurd rejected (Int.lt_irrefl 0)

/-- The fields that the handler of election parameters writes before the last one. -/
@[mk_iff]
structure RepeatsElection (src : AwdlPeer) (val : Buf) : Prop where
  height : Repeats ((readU8 val 3).map UInt8.toUInt32) src.election.height
  masterAddr : Repeats (readEtherAddr val 5) src.election.masterAddr
  masterMetric : Repeats (readLe32 val 11) src.election.masterMetric

/-- The fields that the handler of version 2 writes before the last one. -/
@[mk_iff]
structure RepeatsElectionV2 (src : AwdlPeer) (val : Buf) : Prop where
  height : Repeats (readLe32 val 16) src.election.height
  masterAddr : Repeats (readEtherAddr val 0) src.election.masterAddr
  syncAddr : Repeats (readEtherAddr val 6) src.election.syncAddr
  masterCounter : Repeats (readLe32 val 12) src.election.masterCounter
  masterMetric : Repeats (readLe32 val 20) src.election.masterMetric
  selfMetric : Repeats (readLe32 val 24) src.election.selfMetric

/-- Election parameters that are written into a record and were there before. -/
theorem writeElection_eq_iff (src : AwdlPeer)
    (height masterCounter masterMetric selfMetric : UInt32) (masterAddr syncAddr : EtherAddr) :
    { src with election :=
        { src.election with
          height := height
          masterAddr := masterAddr
          syncAddr := syncAddr
          masterCounter := masterCounter
          masterMetric := masterMetric
          selfMetric := selfMetric } } = src ↔
      height = src.election.height ∧ masterAddr = src.election.masterAddr ∧
        syncAddr = src.election.syncAddr ∧ masterCounter = src.election.masterCounter ∧
        masterMetric = src.election.masterMetric ∧ selfMetric = src.election.selfMetric := by
  constructor
  · intro same
    exact ⟨congrArg (·.election.height) same, congrArg (·.election.masterAddr) same,
      congrArg (·.election.syncAddr) same, congrArg (·.election.masterCounter) same,
      congrArg (·.election.masterMetric) same, congrArg (·.election.selfMetric) same⟩
  · rintro ⟨rfl, rfl, rfl, rfl, rfl, rfl⟩
    rfl

/-- What a cut election TLV leaves behind: every field that could be read is written. -/
theorem awdlHandleElectionParamsTlv_cut {src : AwdlPeer} {val : Buf}
    (v1 : src.supportsV2 = false) (cut : val.len < 19) :
    awdlHandleElectionParamsTlv src val =
      (.tooShort, { src with election :=
        { src.election with
          height := ((readU8 val 3).map UInt8.toUInt32).getD src.election.height
          masterAddr := (readEtherAddr val 5).getD src.election.masterAddr
          masterMetric := (readLe32 val 11).getD src.election.masterMetric } }) := by
  have selfMetric : readLe32 val 15 = none := (readLe32_eq_none_iff val 15).mpr cut
  unfold awdlHandleElectionParamsTlv
  rw [if_neg (Bool.eq_false_iff.mp v1)]
  cases height : readU8 val 3 with
  | none =>
      have early := (readU8_eq_none_iff val 3).mp height
      have masterAddr : readEtherAddr val 5 = none :=
        (readEtherAddr_eq_none_iff val 5).mpr (by omega)
      have masterMetric : readLe32 val 11 = none := (readLe32_eq_none_iff val 11).mpr (by omega)
      rw [masterAddr, masterMetric]
      rfl
  | some distance =>
      cases masterAddr : readEtherAddr val 5 with
      | none =>
          have early := (readEtherAddr_eq_none_iff val 5).mp masterAddr
          have masterMetric : readLe32 val 11 = none :=
            (readLe32_eq_none_iff val 11).mpr (by omega)
          rw [masterMetric]
          rfl
      | some addr =>
          rw [selfMetric]
          cases readLe32 val 11 <;> rfl

/-- A value with all fields is accepted, and so is every value once version 2 is known. -/
theorem awdlHandleElectionParamsTlv_rejected {src : AwdlPeer} {val : Buf}
    (rejected : (awdlHandleElectionParamsTlv src val).1.code < 0) :
    src.supportsV2 = false ∧ val.len < 19 := by
  unfold awdlHandleElectionParamsTlv at rejected
  split at rejected
  · exact absurd rejected (Int.lt_irrefl 0)
  rename_i v2
  refine ⟨Bool.eq_false_of_not_eq_true v2, ?_⟩
  revert rejected
  refine checkedRead_bounded (readU8_eq_none_iff val 3) (by decide) fun height => ?_
  refine checkedRead_bounded (readEtherAddr_eq_none_iff val 5) (by decide) fun masterAddr => ?_
  refine checkedRead_bounded (readLe32_eq_none_iff val 11) (by decide) fun masterMetric => ?_
  exact checkedRead_bounded (readLe32_eq_none_iff val 15) (by decide) fun _ => not_rejected_ok

theorem awdlHandleElectionParamsTlv_rejected_iff (src : AwdlPeer) (val : Buf) :
    RejectsCleanly src (awdlHandleElectionParamsTlv src val) ↔
      (src.supportsV2 = false → val.len < 19 → RepeatsElection src val) := by
  by_cases short : src.supportsV2 = false ∧ val.len < 19
  · rw [awdlHandleElectionParamsTlv_cut short.1 short.2, rejectsCleanly_tooShort,
      writeElection_eq_iff]
    simp only [short, true_imp_iff, repeatsElection_iff, repeats_iff, true_and, and_true]
  · refine iff_of_true (fun rejected => ?_) fun v1 cut => absurd ⟨v1, cut⟩ short
    exact absurd (awdlHandleElectionParamsTlv_rejected rejected) short

/-- What a cut election TLV of version 2 leaves behind. -/
theorem awdlHandleElectionParamsV2Tlv_cut {src : AwdlPeer} {val : Buf} (begun : 20 ≤ val.len)
    (cut : val.len < 40) :
    awdlHandleElectionParamsV2Tlv src val =
      (.tooShort, { src with election :=
        { src.election with
          height := (readLe32 val 16).getD src.election.height
          masterAddr := (readEtherAddr val 0).getD src.election.masterAddr
          syncAddr := (readEtherAddr val 6).getD src.election.syncAddr
          masterCounter := (readLe32 val 12).getD src.election.masterCounter
          masterMetric := (readLe32 val 20).getD src.election.masterMetric
          selfMetric := (readLe32 val 24).getD src.election.selfMetric } }) := by
  have selfCounter : readLe32 val 36 = none := (readLe32_eq_none_iff val 36).mpr cut
  unfold awdlHandleElectionParamsV2Tlv
  obtain ⟨distance, height⟩ : ∃ value, readLe32 val 16 = some value :=
    exists_read (readLe32_eq_none_iff val 16) begun
  obtain ⟨master, masterAddr⟩ : ∃ value, readEtherAddr val 0 = some value :=
    exists_read (readEtherAddr_eq_none_iff val 0) (by omega)
  obtain ⟨parent, syncAddr⟩ : ∃ value, readEtherAddr val 6 = some value :=
    exists_read (readEtherAddr_eq_none_iff val 6) (by omega)
  obtain ⟨counter, masterCounter⟩ : ∃ value, readLe32 val 12 = some value :=
    exists_read (readLe32_eq_none_iff val 12) (by omega)
  rw [height, masterAddr, syncAddr, masterCounter, selfCounter]
  cases masterMetric : readLe32 val 20 with
  | none =>
      have early := (readLe32_eq_none_iff val 20).mp masterMetric
      have selfMetric : readLe32 val 24 = none := (readLe32_eq_none_iff val 24).mpr (by omega)
      rw [selfMetric]
      rfl
  | some metric => cases readLe32 val 24 <;> rfl

theorem awdlHandleElectionParamsV2Tlv_rejected {src : AwdlPeer} {val : Buf}
    (rejected : (awdlHandleElectionParamsV2Tlv src val).1.code < 0) : val.len < 40 := by
  revert rejected
  refine checkedRead_bounded (readLe32_eq_none_iff val 16) (by decide) fun height => ?_
  refine checkedRead_bounded (readEtherAddr_eq_none_iff val 0) (by decide) fun masterAddr => ?_
  refine checkedRead_bounded (readEtherAddr_eq_none_iff val 6) (by decide) fun syncAddr => ?_
  refine checkedRead_bounded (readLe32_eq_none_iff val 12) (by decide) fun masterCounter => ?_
  refine checkedRead_bounded (readLe32_eq_none_iff val 20) (by decide) fun masterMetric => ?_
  refine checkedRead_bounded (readLe32_eq_none_iff val 24) (by decide) fun selfMetric => ?_
  exact checkedRead_bounded (readLe32_eq_none_iff val 36) (by decide) fun _ => not_rejected_ok

theorem awdlHandleElectionParamsV2Tlv_unread {val : Buf} (short : val.len < 20)
    (src : AwdlPeer) : awdlHandleElectionParamsV2Tlv src val = (.tooShort, src) := by
  have height : readLe32 val 16 = none := (readLe32_eq_none_iff val 16).mpr short
  rw [awdlHandleElectionParamsV2Tlv, height]
  rfl

/-- Accepted parameters of version 2 are complete. -/
theorem le_of_awdlHandleElectionParamsV2Tlv_accepted {src : AwdlPeer} {val : Buf}
    (accepted : 0 ≤ (awdlHandleElectionParamsV2Tlv src val).1.code) : 40 ≤ val.len := by
  by_contra cut
  have rejected : ¬(0 : Int) ≤ RxResult.tooShort.code := by decide
  by_cases begun : 20 ≤ val.len
  · rw [awdlHandleElectionParamsV2Tlv_cut begun (Nat.lt_of_not_le cut)] at accepted
    exact rejected accepted
  · rw [awdlHandleElectionParamsV2Tlv_unread (Nat.lt_of_not_le begun)] at accepted
    exact rejected accepted

theorem awdlHandleElectionParamsV2Tlv_rejected_iff (src : AwdlPeer) (val : Buf) :
    RejectsCleanly src (awdlHandleElectionParamsV2Tlv src val) ↔
      (20 ≤ val.len → val.len < 40 → RepeatsElectionV2 src val) := by
  by_cases begun : 20 ≤ val.len
  · by_cases cut : val.len < 40
    · rw [awdlHandleElectionParamsV2Tlv_cut begun cut, rejectsCleanly_tooShort,
        writeElection_eq_iff]
      simp only [begun, cut, true_imp_iff, repeatsElectionV2_iff, repeats_iff]
    · refine iff_of_true (fun rejected => ?_) fun _ short => absurd short cut
      exact absurd (awdlHandleElectionParamsV2Tlv_rejected rejected) cut
  · rw [awdlHandleElectionParamsV2Tlv_unread (Nat.lt_of_not_le begun)]
    exact iff_of_true (rejectsCleanly_unchanged _) fun long => absurd long begun

/-! ## Data path state -/

/-- The room that an optional field takes. -/
def fieldWidth (present : Bool) (size : Nat) : Nat := if present then size else 0

theorem fieldWidth_le (present : Bool) (size : Nat) : fieldWidth present size ≤ size := by
  unfold fieldWidth
  split
  · exact Nat.le_refl size
  · exact Nat.zero_le size

/-- Where the infrastructure address of a data path state stands. -/
def infraOffset (flags : UInt16) : Nat :=
  2 + (fieldWidth (flags &&& 0x0100 != 0) 3 + (fieldWidth (flags &&& 0x0200 != 0) 2 +
    (fieldWidth (flags &&& 0x0001 != 0) 6 + fieldWidth (flags &&& 0x0001 != 0) 2)))

/-- The length that the flags of a data path state ask for. -/
def dataPathLength (flags : UInt16) : Nat :=
  infraOffset flags +
    (fieldWidth (flags &&& 0x0002 != 0) 6 + fieldWidth (flags &&& 0x0004 != 0) 6)

/-- The record after an optional field has been read, if it could be. -/
def storeField {α : Type} (present : Bool) (read : Option α) (write : AwdlPeer → α → AwdlPeer)
    (src : AwdlPeer) : AwdlPeer :=
  if present then read.elim src (write src) else src

section DataPath

variable {α : Type} {val : Buf} {present : Bool} (read : Int → Option α) {size : Nat}
  (bounded : ∀ offset : Nat, read offset = none ↔ val.len < offset + size)

include bounded

/-- An optional field either fits, or ends the handler. -/
theorem dataPathField_eq (write : AwdlPeer → α → AwdlPeer) (src : AwdlPeer) {offset : Nat}
    (inside : offset ≤ val.len) (next : AwdlPeer → Int → RxResult × AwdlPeer) :
    dataPathField present read size write src offset next =
      if val.len < offset + fieldWidth present size then (.tooShort, src)
      else next (storeField present (read offset) write src)
        ((offset + fieldWidth present size : Nat) : Int) := by
  unfold dataPathField fieldWidth storeField
  cases present with
  | false => rw [if_neg Bool.false_ne_true, if_neg Bool.false_ne_true, if_neg (by omega)]; rfl
  | true =>
      simp only [if_true]
      cases found : read offset with
      | none => rw [if_pos ((bounded offset).mp found)]; rfl
      | some value =>
          have fits : ¬val.len < offset + size := fun cut => by
            cases found.symm.trans ((bounded offset).mpr cut)
          rw [if_neg fits, Nat.cast_add]
          rfl

/-- A field that is only skipped. -/
theorem dataPathField_skip (src : AwdlPeer) {offset : Nat} (inside : offset ≤ val.len)
    (next : AwdlPeer → Int → RxResult × AwdlPeer) :
    dataPathField present read size (fun src _ => src) src offset next =
      if val.len < offset + fieldWidth present size then (.tooShort, src)
      else next src ((offset + fieldWidth present size : Nat) : Int) := by
  have same : storeField present (read offset) (fun src _ => src) src = src := by
    unfold storeField
    cases present <;> cases read offset <;> rfl
  rw [dataPathField_eq read bounded _ src inside, same]

end DataPath

theorem storeField_of_none {α : Type} {read : Option α} (missing : read = none) (present : Bool)
    (write : AwdlPeer → α → AwdlPeer) (src : AwdlPeer) :
    storeField present read write src = src := by
  rw [missing]
  cases present <;> rfl

/-- The two addresses at the end of a data path state. -/
theorem dataPathField_addresses {val : Buf} (infra own : Bool) (src : AwdlPeer) {offset : Nat}
    (inside : offset ≤ val.len) :
    (dataPathField infra (readEtherAddr val) 6 (fun src addr => { src with infraAddr := addr })
        src offset fun src offset =>
      dataPathField own (readEtherAddr val) 6 (fun src _ => src) src offset
        fun src _ => (.ok, src)) =
      (if val.len < offset + (fieldWidth infra 6 + fieldWidth own 6) then .tooShort else .ok,
        storeField infra (readEtherAddr val offset)
          (fun src addr => { src with infraAddr := addr }) src) := by
  have address (offset : Nat) := readEtherAddr_eq_none_iff val offset
  refine (dataPathField_eq (readEtherAddr val) address _ src inside _).trans ?_
  by_cases cut : val.len < offset + fieldWidth infra 6
  · have width := fieldWidth_le infra 6
    rw [if_pos cut, if_pos (by omega), storeField_of_none ((address offset).mpr (by omega))]
  · rw [if_neg cut]
    refine (dataPathField_skip (readEtherAddr val) address _ (Nat.le_of_not_lt cut) _).trans ?_
    rw [Nat.add_assoc]
    split <;> rfl

/-- The record after the country code and the infrastructure address have been
read, as far as they could be. -/
def storeDataPath (flags : UInt16) (val : Buf) (src : AwdlPeer) : AwdlPeer :=
  storeField (flags &&& 0x0002 != 0) (readEtherAddr val (infraOffset flags))
    (fun src addr => { src with infraAddr := addr })
    (storeField (flags &&& 0x0100 != 0) (readBytesCopy val 2 3)
      (fun src code => { src with countryCode := overwrite src.countryCode 0 code }) src)

/-- The handler of the data path state, once the flags are read. -/
theorem awdlHandleDataPathStateTlv_eq {src : AwdlPeer} {val : Buf} {flags : UInt16}
    (read : readLe16 val 0 = some flags) :
    awdlHandleDataPathStateTlv src val =
      (if val.len < dataPathLength flags then .tooShort else .ok, storeDataPath flags val src) := by
  have begun : 2 ≤ val.len := by
    by_contra short
    cases read.symm.trans ((readLe16_eq_none_iff val 0).mpr (Nat.lt_of_not_le short))
  have countryWidth := fieldWidth_le (flags &&& 0x0100 != 0) 3
  have address (offset : Nat) := readEtherAddr_eq_none_iff val offset
  have bytes (offset : Nat) : readBytesCopy val offset 3 = none ↔ val.len < offset + 3 :=
    readBytes_eq_none_iff
  -- a cut in front of the infrastructure address
  have stopped (src : AwdlPeer) {bound : Nat} (cut : val.len < bound)
      (early : bound ≤ infraOffset flags) :
      ((.tooShort, src) : RxResult × AwdlPeer) =
        (if val.len < dataPathLength flags then .tooShort else .ok,
          storeField (flags &&& 0x0002 != 0) (readEtherAddr val (infraOffset flags))
            (fun src addr => { src with infraAddr := addr }) src) := by
    rw [if_pos (by unfold dataPathLength; omega),
      storeField_of_none ((address _).mpr (by omega))]
  unfold awdlHandleDataPathStateTlv
  rw [read]
  dsimp only [checkedRead]
  refine (dataPathField_eq (readBytesCopy val · 3) bytes _ src begun _).trans ?_
  unfold storeDataPath
  by_cases cut : val.len < 2 + fieldWidth (flags &&& 0x0100 != 0) 3
  · have noCode : readBytesCopy val 2 3 = none := (bytes 2).mpr (by omega)
    rw [if_pos cut, storeField_of_none noCode]
    exact stopped src cut (by unfold infraOffset; omega)
  rw [if_neg cut]
  generalize storeField (flags &&& 0x0100 != 0) _ _ src = src
  refine (dataPathField_skip (readLe16 val) (readLe16_eq_none_iff val) src
    (Nat.le_of_not_lt cut) _).trans ?_
  split
  · rename_i cut
    exact stopped src cut (by unfold infraOffset; omega)
  rename_i fits
  refine (dataPathField_skip (readEtherAddr val) address src (Nat.le_of_not_lt fits) _).trans ?_
  split
  · rename_i cut
    exact stopped src cut (by unfold infraOffset; omega)
  rename_i fits
  refine (dataPathField_skip (readLe16 val) (readLe16_eq_none_iff val) src
    (Nat.le_of_not_lt fits) _).trans ?_
  split
  · rename_i cut
    exact stopped src cut (by unfold infraOffset; omega)
  rename_i fits
  have place : 2 + fieldWidth (flags &&& 0x0100 != 0) 3 + fieldWidth (flags &&& 0x0200 != 0) 2 +
      fieldWidth (flags &&& 0x0001 != 0) 6 + fieldWidth (flags &&& 0x0001 != 0) 2 =
        infraOffset flags := by
    unfold infraOffset
    omega
  rw [place] at fits ⊢
  exact dataPathField_addresses _ _ src (Nat.le_of_not_lt fits)

/-- The fields of a data path state that the handler writes. -/
@[mk_iff]
structure RepeatsDataPath (src : AwdlPeer) (val : Buf) (flags : UInt16) : Prop where
  countryCode : (flags &&& 0x0100 != 0) = true →
    Repeats (readBytesCopy val 2 3) (src.countryCode.take 3)
  infraAddr : (flags &&& 0x0002 != 0) = true →
    Repeats (readEtherAddr val (infraOffset flags)) src.infraAddr

/-- A country code that is written over itself. -/
theorem overwrite_country_eq_iff {code : List UInt8} (length : code.length = 3)
    (stored : List UInt8) : overwrite stored 0 code = stored ↔ code = stored.take 3 := by
  rw [overwrite, List.take_zero, List.nil_append, length, Nat.zero_add]
  constructor
  · intro same
    rw [← same, ← length, List.take_left]
  · intro same
    rw [same, List.take_append_drop]

theorem storeField_eq_iff {α : Type} {read : Option α} (write : AwdlPeer → α → AwdlPeer)
    {src : AwdlPeer} {stored : α}
    (written : ∀ value, read = some value → (write src value = src ↔ value = stored))
    (present : Bool) :
    storeField present read write src = src ↔ (present = true → Repeats read stored) := by
  unfold storeField Repeats
  cases present with
  | false => exact iff_of_true rfl fun absent => absurd absent Bool.false_ne_true
  | true =>
      rw [if_pos rfl]
      cases found : read with
      | none => exact iff_of_true rfl fun _ value again => (by cases again)
      | some value =>
          refine (written value found).trans ⟨?_, fun repeated => repeated rfl value rfl⟩
          intro same _ other again
          cases again
          exact same

theorem storeDataPath_eq_iff (flags : UInt16) (val : Buf) (src : AwdlPeer) :
    storeDataPath flags val src = src ↔ RepeatsDataPath src val flags := by
  have country : ∀ code, readBytesCopy val 2 3 = some code →
      ({ src with countryCode := overwrite src.countryCode 0 code } = src ↔
        code = src.countryCode.take 3) := by
    intro code read
    obtain ⟨inside, bytes⟩ := @readBytes_eq_some val 2 3 code read
    have length : code.length = 3 := by
      rw [bytes, List.length_take, List.length_drop]
      omega
    rw [← overwrite_country_eq_iff length]
    exact ⟨fun same => congrArg AwdlPeer.countryCode same, fun same => (by rw [same])⟩
  have infra : ∀ addr, readEtherAddr val (infraOffset flags) = some addr →
      ({ src with infraAddr := addr } = src ↔ addr = src.infraAddr) :=
    fun addr _ => ⟨fun same => congrArg AwdlPeer.infraAddr same, fun same => (by rw [same])⟩
  rw [repeatsDataPath_iff,
    ← storeField_eq_iff
      (fun src code => { src with countryCode := overwrite src.countryCode 0 code }) country,
    ← storeField_eq_iff (fun src addr => { src with infraAddr := addr }) infra]
  refine ⟨fun same => ?_, fun same => ?_⟩
  · -- the second write leaves the country code of the first
    have first : storeField (flags &&& 0x0100 != 0) (readBytesCopy val 2 3)
        (fun src code => { src with countryCode := overwrite src.countryCode 0 code }) src =
          { src with countryCode := (storeDataPath flags val src).countryCode } := by
      unfold storeDataPath storeField
      split <;> split <;> cases readBytesCopy val 2 3 <;>
        cases readEtherAddr val (infraOffset flags) <;> rfl
    rw [same] at first
    refine ⟨first, ?_⟩
    rw [storeDataPath, first] at same
    exact same
  · rw [storeDataPath, same.1]
    exact same.2

theorem awdlHandleDataPathStateTlv_rejected_iff (src : AwdlPeer) (val : Buf) :
    RejectsCleanly src (awdlHandleDataPathStateTlv src val) ↔
      ∀ flags, readLe16 val 0 = some flags → val.len < dataPathLength flags →
        RepeatsDataPath src val flags := by
  cases read : readLe16 val 0 with
  | none =>
      refine iff_of_true ?_ fun flags found => (by cases found)
      rw [awdlHandleDataPathStateTlv, read]
      exact rejectsCleanly_unchanged _
  | some flags =>
      rw [awdlHandleDataPathStateTlv_eq read]
      simp only [Option.some.injEq, forall_eq']
      by_cases cut : val.len < dataPathLength flags
      · rw [if_pos cut, rejectsCleanly_tooShort, storeDataPath_eq_iff]
        exact ⟨fun repeated _ => repeated, fun repeated => repeated cut⟩
      · rw [if_neg cut]
        exact iff_of_true rejectsCleanly_ok fun short => absurd short cut

/-! ## All TLVs -/

theorem checkedRead_rejectsCleanly {α : Type} {src : AwdlPeer} (read : Option α)
    {next : α → RxResult × AwdlPeer} (later : ∀ value, RejectsCleanly src (next value)) :
    RejectsCleanly src (checkedRead read src next) := by
  cases read with
  | none => exact rejectsCleanly_unchanged _
  | some value => exact later value

theorem awdlHandleChanseqTlv_rejectsCleanly (list : AwdlChanseq) (src : AwdlPeer) (val : Buf)
    (state : AwdlState) : RejectsCleanly src (awdlHandleChanseqTlv list src val state) := by
  apply checkedRead_rejectsCleanly
  intro count
  split
  · exact rejectsCleanly_unchanged _
  apply checkedRead_rejectsCleanly
  intro duplicateCount
  split
  · exact rejectsCleanly_unchanged _
  apply checkedRead_rejectsCleanly
  intro stepCount
  split
  · exact rejectsCleanly_unchanged _
  apply checkedRead_rejectsCleanly
  intro fillChannel
  split
  · exact rejectsCleanly_unchanged _
  apply checkedRead_rejectsCleanly
  intro encoding
  dsimp only
  split
  · exact rejectsCleanly_unchanged _
  exact checkedRead_rejectsCleanly _ fun sequence => rejectsCleanly_ok

theorem awdlHandleSyncParamsTlv_rejected {long : LongWidth} {src : AwdlPeer} {val : Buf}
    {state : AwdlState} {now : UInt64}
    (rejected : (awdlHandleSyncParamsTlv long src val state now).1.code < 0) :
    (awdlHandleSyncParamsTlv long src val state now).2 = state.sync := by
  unfold awdlHandleSyncParamsTlv at rejected ⊢
  split at rejected
  · rename_i foreign
    rw [if_pos foreign]
  rename_i master
  rw [if_neg master]
  cases first : readLe16 val 1 with
  | none => rfl
  | some timeToNextAw =>
      cases second : readLe16 val 29 with
      | none => rfl
      | some awCounter =>
          rw [first, second] at rejected
          exact absurd rejected (Int.lt_irrefl 0)

/-- The cases in which the fields in front of a cut have to repeat the record. -/
def CutRepeats (src : AwdlPeer) (type : UInt8) (val : Buf) : Prop :=
  (type = AwdlTlv.electionParameters.toByte → src.supportsV2 = false → val.len < 19 →
    RepeatsElection src val) ∧
  (type = AwdlTlv.electionParametersV2.toByte → 20 ≤ val.len → val.len < 40 →
    RepeatsElectionV2 src val) ∧
  (type = AwdlTlv.dataPathState.toByte → ∀ flags, readLe16 val 0 = some flags →
    val.len < dataPathLength flags → RepeatsDataPath src val flags)

/-- Other TLVs have no such fields. -/
theorem cutRepeats_other {src : AwdlPeer} {type : UInt8} {val : Buf}
    (election : type ≠ AwdlTlv.electionParameters.toByte)
    (electionV2 : type ≠ AwdlTlv.electionParametersV2.toByte)
    (dataPath : type ≠ AwdlTlv.dataPathState.toByte) : CutRepeats src type val :=
  ⟨fun same => absurd same election, fun same => absurd same electionV2,
    fun same => absurd same dataPath⟩

/-- A handler that only has the record to change. -/
theorem rejectsCleanly_iff {src : AwdlPeer} {handled : RxResult × AwdlPeer}
    {sync : AwdlSyncState} :
    (handled.1.code < 0 → handled.2 = src ∧ sync = sync) ↔ RejectsCleanly src handled :=
  ⟨fun clean rejected => (clean rejected).1, fun clean rejected => ⟨clean rejected, rfl⟩⟩

/-- **When a rejected TLV changes nothing.** -/
theorem awdlHandleTlv_rejected_iff (long : LongWidth) (list : AwdlChanseq) (src : AwdlPeer)
    (type : UInt8) (val : Buf) (state : AwdlState) (tsft : UInt64) :
    ((awdlHandleTlv long list src type val state tsft).result.code < 0 →
      (awdlHandleTlv long list src type val state tsft).src = src ∧
        (awdlHandleTlv long list src type val state tsft).sync = state.sync) ↔
      CutRepeats src type val := by
  unfold awdlHandleTlv
  split_ifs with sync chanSeq election electionV2 arpa dataPath version
  · refine iff_of_true (fun rejected => ⟨rfl, awdlHandleSyncParamsTlv_rejected rejected⟩) ?_
    subst sync
    exact cutRepeats_other (by decide) (by decide) (by decide)
  · subst chanSeq
    refine iff_of_true (rejectsCleanly_iff.mpr ?_)
      (cutRepeats_other (by decide) (by decide) (by decide))
    exact awdlHandleChanseqTlv_rejectsCleanly list src val state
  · subst election
    refine (rejectsCleanly_iff.trans (awdlHandleElectionParamsTlv_rejected_iff src val)).trans ?_
    exact ⟨fun repeated => ⟨fun _ => repeated, fun other => absurd other (by decide),
      fun other => absurd other (by decide)⟩, fun repeated => repeated.1 rfl⟩
  · subst electionV2
    refine (rejectsCleanly_iff.trans (awdlHandleElectionParamsV2Tlv_rejected_iff src val)).trans ?_
    exact ⟨fun repeated => ⟨fun other => absurd other (by decide), fun _ => repeated,
      fun other => absurd other (by decide)⟩, fun repeated => repeated.2.1 rfl⟩
  · subst arpa
    refine iff_of_true (rejectsCleanly_iff.mpr ?_)
      (cutRepeats_other (by decide) (by decide) (by decide))
    exact checkedRead_rejectsCleanly _ fun name => rejectsCleanly_ok
  · subst dataPath
    refine (rejectsCleanly_iff.trans (awdlHandleDataPathStateTlv_rejected_iff src val)).trans ?_
    exact ⟨fun repeated => ⟨fun other => absurd other (by decide),
      fun other => absurd other (by decide), fun _ => repeated⟩, fun repeated => repeated.2.2 rfl⟩
  · subst version
    refine iff_of_true (rejectsCleanly_iff.mpr ?_)
      (cutRepeats_other (by decide) (by decide) (by decide))
    exact checkedRead_rejectsCleanly _ fun version =>
      checkedRead_rejectsCleanly _ fun devclass => rejectsCleanly_ok
  · exact iff_of_true (fun _ => ⟨rfl, rfl⟩) (cutRepeats_other election electionV2 dataPath)

/-- An election TLV that is cut behind the distance to the master. -/
theorem awdlHandleTlv_halfApplied :
    (awdlHandleTlv .bits64 (fun _ => chanNull) default AwdlTlv.electionParameters.toByte
        (bufNewConst [0, 0, 0, 7]) sampleState 0).result.code < 0 ∧
      (awdlHandleTlv .bits64 (fun _ => chanNull) default AwdlTlv.electionParameters.toByte
        (bufNewConst [0, 0, 0, 7]) sampleState 0).src ≠ default := by
  decide

end Owl
