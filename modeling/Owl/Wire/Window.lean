import Owl.Foundation.Run
import Owl.Wire.Buf

/-! # Windows as a byte store

The items of `wire.c` behind one interface: an item has a kind, and a kind has a
size. Cutting a buffer moves the two ends of an interval of the array towards each
other (`exec_cutStep`). In every window an item is read or written exactly where it
fits, a write changes the bytes of the item alone, and what has been written is read
back (`windowStore`).
-/

namespace Owl

/-! ## Cutting -/

/-- A call that makes the window smaller. -/
inductive Cut where
  | strip (len : Int)
  | take (len : Int)
  deriving DecidableEq, Repr

/-- The call on a buffer: the result and the buffer afterwards. -/
def cutStep (buf : Buf) : Cut → Int × Buf
  | .strip len =>
      match bufStrip buf len with
      | none => (outOfBounds, buf)
      | some next => (len, next)
  | .take len =>
      match bufTake buf len with
      | none => (outOfBounds, buf)
      | some next => (len, next)

/-- Positions of the array, from the first up to the last. -/
structure Interval where
  first : Nat
  last : Nat
  deriving DecidableEq, Repr

/-- The call on an interval of positions. -/
def intervalStep (window : Interval) : Cut → Int × Interval
  | .strip len =>
      if 0 ≤ len ∧ window.first + len ≤ window.last then
        (len, ⟨window.first + len.toNat, window.last⟩)
      else (outOfBounds, window)
  | .take len =>
      if 0 ≤ len ∧ window.first + len ≤ window.last then
        (len, ⟨window.first, window.last - len.toNat⟩)
      else (outOfBounds, window)

/-- The positions a buffer covers. -/
def Buf.interval (buf : Buf) : Interval := ⟨buf.data, buf.data + buf.len⟩

section Cutting

variable {buf : Buf} {len : Int}

theorem bufStrip_inside (inside : 0 ≤ len ∧ len ≤ buf.len) :
    ∃ next, bufStrip buf len = some next ∧ next.orig = buf.orig ∧
      next.interval = ⟨buf.data + len.toNat, buf.data + buf.len⟩ := by
  refine ⟨_, dif_neg (by omega), rfl, ?_⟩
  simp only [Buf.interval, Interval.mk.injEq, true_and]
  omega

theorem bufStrip_outside (outside : ¬(0 ≤ len ∧ len ≤ buf.len)) : bufStrip buf len = none :=
  dif_pos (by omega)

theorem bufTake_inside (inside : 0 ≤ len ∧ len ≤ buf.len) :
    ∃ next, bufTake buf len = some next ∧ next.orig = buf.orig ∧
      next.interval = ⟨buf.data, buf.data + buf.len - len.toNat⟩ := by
  refine ⟨_, if_neg (by omega), rfl, ?_⟩
  simp only [Buf.interval, Interval.mk.injEq, true_and]
  omega

theorem bufTake_outside (outside : ¬(0 ≤ len ∧ len ≤ buf.len)) : bufTake buf len = none :=
  if_pos (by omega)

/-- A call is carried out, or it is refused and changes nothing. -/
theorem cutStep_spec (buf : Buf) (cut : Cut) :
    (cutStep buf cut).2.orig = buf.orig ∧
      intervalStep buf.interval cut = ((cutStep buf cut).1, (cutStep buf cut).2.interval) ∧
      ((cutStep buf cut).1 = outOfBounds → (cutStep buf cut).2 = buf) := by
  have fits (len : Int) :
      (0 ≤ len ∧ buf.interval.first + len ≤ buf.interval.last) ↔ 0 ≤ len ∧ len ≤ buf.len := by
    change (0 ≤ len ∧ (buf.data : Int) + len ≤ (buf.data + buf.len : Nat)) ↔ _
    omega
  cases cut with
  | strip len =>
      rw [cutStep, intervalStep]
      by_cases inside : 0 ≤ len ∧ len ≤ buf.len
      · obtain ⟨next, done, same, covered⟩ := bufStrip_inside inside
        rw [done, if_pos ((fits len).mpr inside)]
        refine ⟨same, congrArg _ covered.symm, fun refused => ?_⟩
        have negative : len = -1 := refused
        omega
      · rw [bufStrip_outside inside, if_neg (mt (fits len).mp inside)]
        exact ⟨rfl, rfl, fun _ => rfl⟩
  | take len =>
      rw [cutStep, intervalStep]
      by_cases inside : 0 ≤ len ∧ len ≤ buf.len
      · obtain ⟨next, done, same, covered⟩ := bufTake_inside inside
        rw [done, if_pos ((fits len).mpr inside)]
        refine ⟨same, congrArg _ covered.symm, fun refused => ?_⟩
        have negative : len = -1 := refused
        omega
      · rw [bufTake_outside inside, if_neg (mt (fits len).mp inside)]
        exact ⟨rfl, rfl, fun _ => rfl⟩

/-- **Any sequence of calls leaves an interval of the array.** -/
theorem exec_cutStep (bytes : List UInt8) (cuts : List Cut) :
    (Transition.exec cutStep (bufNewConst bytes) cuts).2.orig = bytes ∧
      Transition.exec intervalStep ⟨0, bytes.length⟩ cuts =
        ((Transition.exec cutStep (bufNewConst bytes) cuts).1,
          (Transition.exec cutStep (bufNewConst bytes) cuts).2.interval) := by
  have whole : (bufNewConst bytes).interval = ⟨0, bytes.length⟩ := by
    rw [Buf.interval, bufNewConst, Nat.zero_add]
  rw [← whole]
  exact Transition.exec_simulate Buf.interval (fun buf => buf.orig = bytes) rfl
    (fun buf cut same => ⟨(cutStep_spec buf cut).1.trans same, (cutStep_spec buf cut).2.1⟩) cuts

end Cutting

/-! ## Items -/

/-- The kinds of items. -/
inductive WireKind where
  | u8
  | le16
  | be16
  | le32
  | be32
  | etherAddr
  | bytes (length : Nat)
  deriving DecidableEq, Repr

/-- An item of some kind. -/
inductive WireItem where
  | u8 (value : UInt8)
  | le16 (value : UInt16)
  | be16 (value : UInt16)
  | le32 (value : UInt32)
  | be32 (value : UInt32)
  | etherAddr (addr : EtherAddr)
  | bytes (content : List UInt8)
  deriving DecidableEq, Repr

/-- The number of bytes an item takes. -/
def WireKind.size : WireKind → Nat
  | .u8 => 1
  | .le16 | .be16 => 2
  | .le32 | .be32 => 4
  | .etherAddr => EtherAddr.length
  | .bytes length => length

def WireItem.kind : WireItem → WireKind
  | .u8 _ => .u8
  | .le16 _ => .le16
  | .be16 _ => .be16
  | .le32 _ => .le32
  | .be32 _ => .be32
  | .etherAddr _ => .etherAddr
  | .bytes content => .bytes content.length

/-- The `read_*` function of a kind. -/
def readItem (buf : Buf) (offset : Int) : WireKind → Option WireItem
  | .u8 => (readU8 buf offset).map .u8
  | .le16 => (readLe16 buf offset).map .le16
  | .be16 => (readBe16 buf offset).map .be16
  | .le32 => (readLe32 buf offset).map .le32
  | .be32 => (readBe32 buf offset).map .be32
  | .etherAddr => (readEtherAddr buf offset).map .etherAddr
  | .bytes length => (readBytes buf offset length).map .bytes

/-- The `write_*` function of an item. -/
def writeItem (buf : Buf) (offset : Int) : WireItem → Int × Buf
  | .u8 value => writeU8 buf offset value
  | .le16 value => writeLe16 buf offset value
  | .be16 value => writeBe16 buf offset value
  | .le32 value => writeLe32 buf offset value
  | .be32 value => writeBe32 buf offset value
  | .etherAddr addr => writeEtherAddr buf offset addr
  | .bytes content => writeBytes buf offset content

/-- The bytes an item is written as. -/
def WireItem.octets : WireItem → List UInt8
  | .u8 value => [value]
  | .le16 value => Octets.toLE 2 value.toNat
  | .be16 value => Octets.toBE 2 value.toNat
  | .le32 value => Octets.toLE 4 value.toNat
  | .be32 value => Octets.toBE 4 value.toNat
  | .etherAddr addr => addr.octets
  | .bytes content => content

/-- The item of a kind that bytes are read as. -/
def WireKind.decode (bytes : List UInt8) : WireKind → WireItem
  | .u8 => .u8 (bytes.getD 0 0)
  | .le16 => .le16 (UInt16.ofNat (Octets.ofLE bytes))
  | .be16 => .be16 (UInt16.ofNat (Octets.ofBE bytes))
  | .le32 => .le32 (UInt32.ofNat (Octets.ofLE bytes))
  | .be32 => .be32 (UInt32.ofNat (Octets.ofBE bytes))
  | .etherAddr => .etherAddr (EtherAddr.ofOctets bytes)
  | .bytes _ => .bytes bytes

theorem WireItem.length_octets (item : WireItem) : item.octets.length = item.kind.size := by
  cases item <;> simp only [octets, kind, WireKind.size, Octets.length_toLE, Octets.length_toBE,
    EtherAddr.length_octets, EtherAddr.length, List.length_singleton]

theorem WireItem.decode_octets (item : WireItem) : item.kind.decode item.octets = item := by
  cases item with
  | u8 value => rfl
  | le16 value =>
      simp only [kind, WireKind.decode, octets, Octets.ofLE_toLE]
      exact congrArg le16 (UInt16.toNat_inj.mp (by simp))
  | be16 value =>
      simp only [kind, WireKind.decode, octets, Octets.ofBE_toBE]
      exact congrArg be16 (UInt16.toNat_inj.mp (by simp))
  | le32 value =>
      simp only [kind, WireKind.decode, octets, Octets.ofLE_toLE]
      exact congrArg le32 (UInt32.toNat_inj.mp (by simp))
  | be32 value =>
      simp only [kind, WireKind.decode, octets, Octets.ofBE_toBE]
      exact congrArg be32 (UInt32.toNat_inj.mp (by simp))
  | etherAddr addr => rfl
  | bytes bytes => rfl

theorem readItem_eq (buf : Buf) (offset : Int) (kind : WireKind) :
    readItem buf offset kind = (readBytes buf offset kind.size).map (kind.decode ·) := by
  cases kind with
  | bytes length => rfl
  | _ => exact Option.map_map ..

theorem writeItem_eq (buf : Buf) (offset : Int) (item : WireItem) :
    writeItem buf offset item = writeBytes buf offset item.octets := by
  cases item <;> rfl

/-! ## Reading and writing -/

/-- An item of a size at an offset lies in the window. -/
def Buf.Holds (buf : Buf) (offset : Int) (size : Nat) : Prop :=
  0 ≤ offset ∧ offset + size ≤ buf.len

/-- A read follows the pointer into the array. -/
theorem readBytes_eq_orig {buf : Buf} {offset : Int} {length : Nat}
    (inside : buf.Holds offset length) :
    readBytes buf offset length =
      some ((buf.orig.drop (buf.data + offset.toNat)).take length) := by
  unfold Buf.Holds at inside
  rw [readBytes, if_neg (by omega), Buf.view, List.drop_take, List.drop_drop, List.take_take,
    Nat.min_eq_left (by omega)]

theorem readBytes_refused {buf : Buf} {offset : Int} {length : Nat}
    (outside : ¬buf.Holds offset length) : readBytes buf offset length = none := by
  unfold Buf.Holds at outside
  rw [readBytes, if_pos (by omega)]

theorem writeBytes_refused {buf : Buf} {offset : Int} {bytes : List UInt8}
    (outside : ¬buf.Holds offset bytes.length) :
    writeBytes buf offset bytes = (outOfBounds, buf) := by
  unfold Buf.Holds at outside
  rw [writeBytes, dif_pos (by omega)]

theorem writeBytes_inside {buf : Buf} {offset : Int} {bytes : List UInt8}
    (inside : buf.Holds offset bytes.length) :
    ∃ next, writeBytes buf offset bytes = ((bytes.length : Int), next) ∧
      next.interval = buf.interval ∧
      next.orig = overwrite buf.orig (buf.data + offset.toNat) bytes := by
  unfold Buf.Holds at inside
  exact ⟨_, dif_neg (by omega), rfl, rfl⟩

/-- Copying bytes into an array changes the bytes at their positions alone. -/
theorem getElem?_overwrite {array bytes : List UInt8} {start : Nat}
    (fits : start + bytes.length ≤ array.length) (i : Nat) :
    (overwrite array start bytes)[i]? =
      if start ≤ i ∧ i < start + bytes.length then bytes[i - start]? else array[i]? := by
  have front : (array.take start).length = start := by
    rw [List.length_take]
    omega
  have both : (array.take start ++ bytes).length = start + bytes.length := by
    rw [List.length_append, front]
  unfold overwrite
  by_cases before : i < start
  · rw [if_neg (by omega), List.getElem?_append_left (by omega),
      List.getElem?_append_left (by omega), List.getElem?_take_of_lt before]
  · by_cases within : i < start + bytes.length
    · rw [if_pos ⟨Nat.le_of_not_lt before, within⟩, List.getElem?_append_left (by omega),
        List.getElem?_append_right (by omega), front]
    · rw [if_neg (by omega), List.getElem?_append_right (by omega), both, List.getElem?_drop]
      congr 1
      omega

theorem take_drop_overwrite {array bytes : List UInt8} {start : Nat}
    (fits : start ≤ array.length) :
    ((overwrite array start bytes).drop start).take bytes.length = bytes := by
  have front : (array.take start).length = start := by
    rw [List.length_take]
    omega
  unfold overwrite
  rw [List.append_assoc, List.drop_left' front, List.take_left]

/-- What holds of a window as a store of items. -/
structure WindowStore (buf : Buf) : Prop where
  /-- A read succeeds exactly if the item lies in the window. -/
  read_iff : ∀ offset kind, (readItem buf offset kind).isSome ↔ buf.Holds offset kind.size
  /-- A write succeeds exactly if the item lies in the window. -/
  write_iff : ∀ offset item,
    (writeItem buf offset item).1 = item.kind.size ↔ buf.Holds offset item.kind.size
  /-- A write that fails says so and changes nothing. -/
  write_refused : ∀ offset item, ¬buf.Holds offset item.kind.size →
    writeItem buf offset item = (outOfBounds, buf)
  /-- A write that succeeds keeps the window and changes the bytes of the item alone. -/
  write_exact : ∀ offset item, buf.Holds offset item.kind.size →
    (writeItem buf offset item).2.interval = buf.interval ∧
      ∀ i : Nat, (writeItem buf offset item).2.orig[i]? =
        if buf.data + offset.toNat ≤ i ∧ i < buf.data + offset.toNat + item.kind.size then
          item.octets[i - (buf.data + offset.toNat)]?
        else buf.orig[i]?
  /-- What has been written is read back. -/
  read_back : ∀ offset item, buf.Holds offset item.kind.size →
    readItem (writeItem buf offset item).2 offset item.kind = some item
  /-- A string consists of bytes of the window, and of no other does it depend. -/
  string_inside : ∀ offset str length result, readIntString buf offset str length = some result →
    ∃ count ≤ length, buf.Holds offset (1 + count) ∧ result =
      overwrite str 0 ((buf.orig.drop (buf.data + offset.toNat + 1)).take count ++ [0])
  string_window : ∀ other : Buf, other.view = buf.view → ∀ offset str length,
    readIntString other offset str length = readIntString buf offset str length
  /-- A TLV consists of bytes of the window, and of no other does it depend. -/
  tlv_inside : ∀ offset type len value, readTlv buf offset = some (type, len, value) →
    buf.Holds offset (3 + len.toNat) ∧
      value = (buf.orig.drop (buf.data + offset.toNat + 3)).take len.toNat
  tlv_window : ∀ other : Buf, other.view = buf.view → ∀ offset,
    readTlv other offset = readTlv buf offset

section Laws

variable {buf : Buf} {offset : Int}

theorem readBytes_isSome_iff {length : Nat} :
    (readBytes buf offset length).isSome ↔ buf.Holds offset length := by
  by_cases inside : buf.Holds offset length
  · rw [readBytes_eq_orig inside]
    exact iff_of_true rfl inside
  · rw [readBytes_refused inside]
    exact iff_of_false Bool.false_ne_true inside

/-- A read that succeeds returns bytes of the array inside the window. -/
theorem readBytes_some_inside {length : Nat} {bytes : List UInt8}
    (read : readBytes buf offset length = some bytes) :
    buf.Holds offset length ∧ bytes = (buf.orig.drop (buf.data + offset.toNat)).take length := by
  have inside : buf.Holds offset length := readBytes_isSome_iff.mp (by rw [read]; rfl)
  rw [readBytes_eq_orig inside] at read
  exact ⟨inside, (Option.some.inj read).symm⟩

/-- A read looks at the window alone. -/
theorem readBytes_congr {other : Buf} (same : other.view = buf.view) (offset : Int)
    (length : Nat) : readBytes other offset length = readBytes buf offset length := by
  have len : other.len = buf.len := by
    rw [← Buf.length_view, same, Buf.length_view]
  rw [readBytes, readBytes, same, len]

theorem writeItem_inside {item : WireItem} (inside : buf.Holds offset item.kind.size) :
    ∃ next, writeItem buf offset item = ((item.kind.size : Int), next) ∧
      next.interval = buf.interval ∧
      next.orig = overwrite buf.orig (buf.data + offset.toNat) item.octets := by
  rw [writeItem_eq, ← item.length_octets]
  exact writeBytes_inside (item.length_octets ▸ inside)

theorem writeItem_refused {item : WireItem} (outside : ¬buf.Holds offset item.kind.size) :
    writeItem buf offset item = (outOfBounds, buf) := by
  rw [writeItem_eq]
  exact writeBytes_refused (item.length_octets ▸ outside)

theorem writeItem_size_iff {item : WireItem} :
    (writeItem buf offset item).1 = item.kind.size ↔ buf.Holds offset item.kind.size := by
  by_cases inside : buf.Holds offset item.kind.size
  · obtain ⟨next, written, -⟩ := writeItem_inside inside
    rw [written]
    exact iff_of_true rfl inside
  · rw [writeItem_refused inside]
    refine iff_of_false ?_ inside
    unfold outOfBounds
    omega

theorem readItem_writeItem {item : WireItem} (inside : buf.Holds offset item.kind.size) :
    readItem (writeItem buf offset item).2 offset item.kind = some item := by
  obtain ⟨next, written, covered, array⟩ := writeItem_inside inside
  obtain ⟨data, last⟩ := Interval.mk.inj covered
  have within := buf.inBounds
  have still : next.Holds offset item.kind.size := by
    unfold Buf.Holds at inside ⊢
    omega
  have start : buf.data + offset.toNat ≤ buf.orig.length := by
    unfold Buf.Holds at inside
    omega
  rw [written, readItem_eq, readBytes_eq_orig still, array, data, ← item.length_octets,
    take_drop_overwrite start, Option.map_some, item.decode_octets]

theorem readU8_some_inside {value : UInt8} (read : readU8 buf offset = some value) :
    buf.Holds offset 1 := by
  obtain ⟨bytes, found, -⟩ := Option.map_eq_some_iff.mp read
  exact (readBytes_some_inside found).1

theorem readIntString_some_inside {str result : List UInt8} {length : Nat}
    (read : readIntString buf offset str length = some result) :
    ∃ count ≤ length, buf.Holds offset (1 + count) ∧ result =
      overwrite str 0 ((buf.orig.drop (buf.data + offset.toNat + 1)).take count ++ [0]) := by
  simp only [readIntString, Option.bind_eq_bind, Option.bind_eq_some_iff, Option.pure_def,
    Option.some.injEq] at read
  obtain ⟨announced, first, bytes, copied, rfl⟩ := read
  obtain ⟨inside, rfl⟩ := readBytes_some_inside copied
  have start := (readU8_some_inside first).1
  have next : (offset + 1).toNat = offset.toNat + 1 := by omega
  refine ⟨if announced.toNat > length then length else announced.toNat, ?_, ?_, ?_⟩
  · split <;> omega
  · unfold Buf.Holds at inside ⊢
    omega
  · rw [next, ← Nat.add_assoc]

theorem readTlv_some_inside {type : UInt8} {len : UInt16} {value : List UInt8}
    (read : readTlv buf offset = some (type, len, value)) :
    buf.Holds offset (3 + len.toNat) ∧
      value = (buf.orig.drop (buf.data + offset.toNat + 3)).take len.toNat := by
  simp only [readTlv, Option.bind_eq_bind, Option.bind_eq_some_iff, Option.pure_def,
    Option.some.injEq, Prod.mk.injEq] at read
  obtain ⟨type, first, len, -, value, behind, rfl, rfl, rfl⟩ := read
  obtain ⟨inside, bytes⟩ := readBytes_some_inside behind
  have start := (readU8_some_inside first).1
  have next : (offset + 3).toNat = offset.toNat + 3 := by omega
  refine ⟨?_, ?_⟩
  · unfold Buf.Holds at inside ⊢
    omega
  · rw [bytes, next, ← Nat.add_assoc]

end Laws

/-- **Every window is a store.** -/
theorem windowStore (buf : Buf) : WindowStore buf where
  read_iff offset kind := by
    rw [readItem_eq, Option.isSome_map]
    exact readBytes_isSome_iff
  write_iff _ _ := writeItem_size_iff
  write_refused _ _ := writeItem_refused
  write_exact offset item inside := by
    obtain ⟨next, written, covered, array⟩ := writeItem_inside inside
    have within := buf.inBounds
    rw [written]
    refine ⟨covered, fun i => ?_⟩
    rw [array, ← item.length_octets, getElem?_overwrite]
    rw [item.length_octets]
    unfold Buf.Holds at inside
    omega
  read_back _ _ := readItem_writeItem
  string_inside _ _ _ _ := readIntString_some_inside
  string_window other same offset str length := by
    simp only [readIntString, readU8, readBytesCopy, readBytes_congr same]
  tlv_inside _ _ _ _ := readTlv_some_inside
  tlv_window other same offset := by
    simp only [readTlv, readU8, readLe16, readBytes_congr same]

/-- **The wire library is a safe byte store over a shrinking window**: cutting an array
leaves an interval of it, refused cuts change nothing, and every window reached is a
store. -/
theorem wire_shrinking_store (bytes : List UInt8) (cuts : List Cut) :
    ∃ results buf,
      Transition.exec cutStep (bufNewConst bytes) cuts = (results, buf) ∧
      Transition.exec intervalStep ⟨0, bytes.length⟩ cuts = (results, buf.interval) ∧
      buf.orig = bytes ∧ buf.interval.last ≤ bytes.length ∧
      buf.view = (bytes.drop buf.interval.first).take (buf.interval.last - buf.interval.first) ∧
      (∀ cut, (cutStep buf cut).1 = outOfBounds → (cutStep buf cut).2 = buf) ∧
      WindowStore buf := by
  obtain ⟨same, covered⟩ := exec_cutStep bytes cuts
  refine ⟨_, _, rfl, covered, same, ?_, ?_, fun cut => (cutStep_spec _ cut).2.2, windowStore _⟩
  · have within := Buf.inBounds (Transition.exec cutStep (bufNewConst bytes) cuts).2
    rw [same] at within
    exact within
  · rw [Buf.view, Buf.interval, Nat.add_sub_cancel_left, same]

end Owl
