import Owl.Tx.Tlvs

/-! # The way of a host name

`awdl_init_state` copies the host name with `strncpy` into an array that is one
byte longer than the limit of the copy, and does not write that byte. A name of
the full length is thus terminated only if the memory happened to hold a zero
there (`hostName_transport_iff`). A terminated name reaches the record that a
peer keeps of the node.
-/

namespace Owl

/-- A host name without its terminating zero, as `get_hostname` leaves it in the
array of `awdl_init`. -/
structure HostName where
  bytes : List UInt8
  short : bytes.length ≤ hostNameLengthMax
  nonzero : 0 ∉ bytes

/-- `char name[HOST_NAME_LENGTH_MAX + 1]`. -/
abbrev NameArray : Type := { bytes : List UInt8 // bytes.length = hostNameLengthMax + 1 }

/-- The last byte of the array. -/
def NameArray.last (array : NameArray) : UInt8 := array.val.getD hostNameLengthMax 0

theorem NameArray.drop_eq (array : NameArray) :
    array.val.drop hostNameLengthMax = [array.last] := by
  have inside : hostNameLengthMax < array.val.length := by
    rw [array.property]
    exact Nat.lt_succ_self _
  have nothing : array.val.drop (hostNameLengthMax + 1) = [] :=
    List.drop_eq_nil_of_le (Nat.le_of_eq array.property)
  rw [List.drop_eq_getElem_cons inside, nothing, NameArray.last,
    List.getD_eq_getElem?_getD, List.getElem?_eq_getElem inside, Option.getD_some]

/-- A string ends at its first zero. -/
theorem cString_append_zero {bytes : List UInt8} (nonzero : 0 ∉ bytes) (rest : List UInt8) :
    cString (bytes ++ 0 :: rest) = bytes := by
  unfold cString
  rw [List.takeWhile_append_of_pos, List.takeWhile_cons_of_neg (by decide), List.append_nil]
  intro byte member
  rw [bne_iff_ne]
  rintro rfl
  exact nonzero member

section Copy

variable (name : HostName) (array : NameArray)

/-- The array after the copy: the name, zeros up to the limit, and the old last byte. -/
theorem strncpy_hostName :
    strncpy array.val name.bytes hostNameLengthMax =
      name.bytes ++ List.replicate (hostNameLengthMax - name.bytes.length) 0 ++ [array.last] := by
  have copied : (name.bytes ++ List.replicate hostNameLengthMax 0).take hostNameLengthMax =
      name.bytes ++ List.replicate (hostNameLengthMax - name.bytes.length) 0 := by
    rw [List.take_append, List.take_of_length_le name.short, List.take_replicate,
      Nat.min_eq_left (Nat.sub_le _ _)]
  have length : (name.bytes ++
      List.replicate (hostNameLengthMax - name.bytes.length) (0 : UInt8)).length =
        hostNameLengthMax := by
    rw [List.length_append, List.length_replicate, Nat.add_sub_cancel' name.short]
  rw [strncpy, copied, overwrite, List.take_zero, List.nil_append, length, Nat.zero_add,
    array.drop_eq]

/-- When the copy is a terminated string. -/
def Terminates : Prop := name.bytes.length < hostNameLengthMax ∨ array.last = 0

variable {name array}

/-- A terminated copy is the name with a zero behind it. -/
theorem strncpy_of_terminates (ends : Terminates name array) :
    ∃ rest, strncpy array.val name.bytes hostNameLengthMax = name.bytes ++ 0 :: rest := by
  rw [strncpy_hostName, List.append_assoc]
  rcases ends with shorter | zero
  · obtain ⟨more, equal⟩ := Nat.exists_eq_succ_of_ne_zero (Nat.sub_ne_zero_of_lt shorter)
    rw [equal, List.replicate_succ]
    exact ⟨_, rfl⟩
  · rw [zero]
    cases hostNameLengthMax - name.bytes.length with
    | zero => exact ⟨[], rfl⟩
    | succ more => exact ⟨_, rfl⟩

/-- A copy that is not terminated has no zero at all. -/
theorem zero_notMem_strncpy (open_ : ¬Terminates name array) :
    0 ∉ strncpy array.val name.bytes hostNameLengthMax := by
  obtain ⟨full, last⟩ := not_or.mp open_
  have length : hostNameLengthMax - name.bytes.length = 0 :=
    Nat.sub_eq_zero_of_le (Nat.le_of_not_lt full)
  rw [strncpy_hostName, length, List.replicate_zero, List.append_nil, List.mem_append,
    List.mem_singleton, not_or]
  exact ⟨name.nonzero, Ne.symm last⟩

theorem length_strncpy_hostName :
    (strncpy array.val name.bytes hostNameLengthMax).length = hostNameLengthMax + 1 := by
  rw [strncpy_hostName, List.length_append, List.length_append, List.length_replicate,
    Nat.add_sub_cancel' name.short, List.length_singleton]

end Copy

/-- A node that has a terminated name is known by it to every peer. -/
theorem awdlHandleArpaTlv_hostName {sender : AwdlState} {name : HostName} {rest : List UInt8}
    (named : sender.name = name.bytes ++ 0 :: rest) (peer : AwdlPeer)
    (sized : peer.name.length = hostNameLengthMax + 1) :
    ∃ type len value next,
      readTlv (bufNewConst (awdlInitArpaTlv sender)) 0 = some (type, len, value) ∧
      awdlHandleArpaTlv peer (bufNewConst value) = (.ok, next) ∧
      next.name.length = hostNameLengthMax + 1 ∧ 0 ∈ next.name ∧
      cString next.name = name.bytes := by
  have string : cString sender.name = name.bytes := by
    rw [named]
    exact cString_append_zero name.nonzero rest
  have length : strlen sender.name = name.bytes.length := congrArg List.length string
  have short : strlen sender.name ≤ hostNameLengthMax := by
    rw [length]
    exact name.short
  have shape : (bufNewConst (awdlInitArpaTlv sender)).view = tlvBytes .arpa
      ([3, UInt8.ofNat (strlen sender.name)] ++ cString sender.name ++ be16 awdlDnsShortLocal) ++
        [] := by
    rw [view_bufNewConst, List.append_nil, ← take_strlen]
    rfl
  have bounded : ([3, UInt8.ofNat (strlen sender.name)] ++ cString sender.name ++
      be16 awdlDnsShortLocal).length < 2 ^ 16 := by
    have bound : (cString sender.name).length ≤ 64 := short
    simp only [List.length_append, List.length_cons, List.length_nil, length_be16]
    omega
  refine ⟨_, _, _, _, readTlv_tlvBytes shape bounded,
    awdlHandleArpaTlv_tx short (view_bufNewConst _) peer, ?_, ?_, ?_⟩
  · dsimp only
    have fits := name.short
    rw [string, length_overwrite]
    · exact sized
    · rw [List.length_append, List.length_singleton, sized, Nat.zero_add]
      omega
  · dsimp only [overwrite]
    simp only [List.mem_append, List.mem_singleton, or_true, true_or]
  · dsimp only [overwrite]
    rw [string, List.take_zero, List.nil_append, List.append_assoc, List.singleton_append]
    exact cString_append_zero name.nonzero _

/-- **When a host name is transported.** The name of an initialised node is
terminated, and every peer takes it over, exactly if it is shorter than the limit
of the copy or the memory held a zero behind it. -/
theorem hostName_transport_iff (name : HostName) (array : NameArray)
    (election : AwdlElectionState) (self : EtherAddr) (chan : AwdlChan) (now : UInt64) :
    ((awdlInitState array.val election name.bytes self chan now).name.length =
          hostNameLengthMax + 1 ∧
        0 ∈ (awdlInitState array.val election name.bytes self chan now).name ∧
        ∀ peer : AwdlPeer, peer.name.length = hostNameLengthMax + 1 →
          ∃ type len value next,
            readTlv (bufNewConst (awdlInitArpaTlv
              (awdlInitState array.val election name.bytes self chan now))) 0 =
                some (type, len, value) ∧
            awdlHandleArpaTlv peer (bufNewConst value) = (.ok, next) ∧
            next.name.length = hostNameLengthMax + 1 ∧ 0 ∈ next.name ∧
            cString next.name = name.bytes) ↔
      name.bytes.length < hostNameLengthMax ∨ array.last = 0 := by
  constructor
  · rintro ⟨_, terminated, _⟩
    by_contra open_
    exact zero_notMem_strncpy open_ terminated
  · intro ends
    obtain ⟨rest, copied⟩ := strncpy_of_terminates ends
    have named : (awdlInitState array.val election name.bytes self chan now).name =
        name.bytes ++ 0 :: rest := copied
    refine ⟨length_strncpy_hostName, ?_, awdlHandleArpaTlv_hostName named⟩
    rw [named]
    exact List.mem_append_right _ List.mem_cons_self

/-- A host name of sixty-four letters. -/
def sampleHostName : HostName := ⟨List.replicate 64 97, by decide, by decide⟩

/-- A long name in memory that held ones before is not terminated. -/
theorem hostName_unterminated :
    ¬(0 ∈ (awdlInitState (List.replicate 65 1) default sampleHostName.bytes ⟨2, 0, 0, 0, 0, 1⟩
      chanOpclass6 0).name) := by
  decide

end Owl
