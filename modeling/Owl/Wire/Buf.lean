import Owl.Wire.EtherAddr

/-! # The packet buffer of `wire.c`

A buffer is a window into a byte array. The window only shrinks: `bufStrip` and
`bufTake` cut it at its two ends and leave the array alone. Every reader and
writer checks that the item lies inside the window, so what a reader returns
depends on the bytes of the window only (`Buf.view`).

A reader returns `none` where the source returns `OUT_OF_BOUNDS`. The results
of the writers are numbers, because the source adds them up.
-/

namespace Owl

/-- `struct buf`: `len` bytes of the array `orig`, from position `data` on. -/
structure Buf where
  orig : List UInt8
  data : Nat
  len : Nat
  inBounds : data + len ≤ orig.length

/-- `OUT_OF_BOUNDS`. -/
def outOfBounds : Int := -1

namespace Buf

/-- The bytes of the window. -/
def view (buf : Buf) : List UInt8 :=
  (buf.orig.drop buf.data).take buf.len

@[simp] theorem length_view (buf : Buf) : buf.view.length = buf.len := by
  have inside := buf.inBounds
  simp only [view, List.length_take, List.length_drop]
  omega

end Buf

/-- `buf_new_const`: the window is the whole array. -/
def bufNewConst (bytes : List UInt8) : Buf where
  orig := bytes
  data := 0
  len := bytes.length
  inBounds := by omega

/-- `buf_new_owned`: a fresh array with the contents `memory` that `malloc` left in it. -/
def bufNewOwned (memory : Nat → UInt8) (len : Nat) : Buf :=
  bufNewConst ((List.range len).map memory)

/-- `buf_strip`: drop bytes at the front of the window. -/
def bufStrip (buf : Buf) (len : Int) : Option Buf :=
  if outside : len > buf.len ∨ len < 0 then none
  else some
    { buf with
      data := buf.data + len.toNat
      len := buf.len - len.toNat
      inBounds := by
        have inside := buf.inBounds
        omega }

/-- `buf_take`: drop bytes at the end of the window. -/
def bufTake (buf : Buf) (len : Int) : Option Buf :=
  if len > buf.len ∨ len < 0 then none
  else some
    { buf with
      len := buf.len - len.toNat
      inBounds := by
        have inside := buf.inBounds
        omega }

/-! ## Readers -/

/-- `read_bytes`. -/
def readBytes (buf : Buf) (offset : Int) (length : Nat) : Option (List UInt8) :=
  if offset < 0 ∨ offset + length > buf.len then none
  else some ((buf.view.drop offset.toNat).take length)

/-- `read_bytes_copy`: as `read_bytes`, but the caller gets a copy. -/
def readBytesCopy (buf : Buf) (offset : Int) (length : Nat) : Option (List UInt8) :=
  readBytes buf offset length

/-- `read_u8`. -/
def readU8 (buf : Buf) (offset : Int) : Option UInt8 :=
  (readBytes buf offset 1).map fun bytes => bytes.getD 0 0

/-- `read_le16`. -/
def readLe16 (buf : Buf) (offset : Int) : Option UInt16 :=
  (readBytes buf offset 2).map fun bytes => UInt16.ofNat (Octets.ofLE bytes)

/-- `read_be16`. -/
def readBe16 (buf : Buf) (offset : Int) : Option UInt16 :=
  (readBytes buf offset 2).map fun bytes => UInt16.ofNat (Octets.ofBE bytes)

/-- `read_le32`. -/
def readLe32 (buf : Buf) (offset : Int) : Option UInt32 :=
  (readBytes buf offset 4).map fun bytes => UInt32.ofNat (Octets.ofLE bytes)

/-- `read_be32`. -/
def readBe32 (buf : Buf) (offset : Int) : Option UInt32 :=
  (readBytes buf offset 4).map fun bytes => UInt32.ofNat (Octets.ofBE bytes)

/-- `read_ether_addr`. -/
def readEtherAddr (buf : Buf) (offset : Int) : Option EtherAddr :=
  (readBytes buf offset EtherAddr.length).map EtherAddr.ofOctets

/-- The array after `bytes` has been copied to position `start`. -/
def overwrite (array : List UInt8) (start : Nat) (bytes : List UInt8) : List UInt8 :=
  array.take start ++ bytes ++ array.drop (start + bytes.length)

/-- `read_int_string`: the string buffer `str` after a string with a length byte
in front has been copied into it, cut to `length` bytes and terminated. -/
def readIntString (buf : Buf) (offset : Int) (str : List UInt8) (length : Nat) :
    Option (List UInt8) := do
  let announced ← readU8 buf offset
  let len := if announced.toNat > length then length else announced.toNat
  let bytes ← readBytesCopy buf (offset + 1) len
  return overwrite str 0 (bytes ++ [0])

/-- `read_tlv`: type, length and value; the source also returns the offset of
the next item, which is `length + 3`. -/
def readTlv (buf : Buf) (offset : Int) : Option (UInt8 × UInt16 × List UInt8) := do
  let type ← readU8 buf offset
  let len ← readLe16 buf (offset + 1)
  let value ← readBytes buf (offset + 3) len.toNat
  return (type, len, value)

/-! ## Writers -/

theorem length_overwrite (array : List UInt8) (start : Nat) (bytes : List UInt8)
    (fits : start + bytes.length ≤ array.length) :
    (overwrite array start bytes).length = array.length := by
  simp only [overwrite, List.length_append, List.length_take, List.length_drop]
  omega

/-- `write_bytes`. -/
def writeBytes (buf : Buf) (offset : Int) (bytes : List UInt8) : Int × Buf :=
  if outside : offset < 0 ∨ offset + bytes.length > buf.len then (outOfBounds, buf)
  else
    (bytes.length,
      { buf with
        orig := overwrite buf.orig (buf.data + offset.toNat) bytes
        inBounds := by
          have inside := buf.inBounds
          rw [length_overwrite _ _ _ (by omega)]
          exact inside })

/-- `write_u8`. -/
def writeU8 (buf : Buf) (offset : Int) (value : UInt8) : Int × Buf :=
  writeBytes buf offset [value]

/-- `write_le16`. -/
def writeLe16 (buf : Buf) (offset : Int) (value : UInt16) : Int × Buf :=
  writeBytes buf offset (Octets.toLE 2 value.toNat)

/-- `write_be16`. -/
def writeBe16 (buf : Buf) (offset : Int) (value : UInt16) : Int × Buf :=
  writeBytes buf offset (Octets.toBE 2 value.toNat)

/-- `write_le32`. -/
def writeLe32 (buf : Buf) (offset : Int) (value : UInt32) : Int × Buf :=
  writeBytes buf offset (Octets.toLE 4 value.toNat)

/-- `write_be32`. -/
def writeBe32 (buf : Buf) (offset : Int) (value : UInt32) : Int × Buf :=
  writeBytes buf offset (Octets.toBE 4 value.toNat)

/-- `write_ether_addr`. -/
def writeEtherAddr (buf : Buf) (offset : Int) (addr : EtherAddr) : Int × Buf :=
  writeBytes buf offset addr.octets

/-! ## Windows as byte strings -/

@[simp] theorem view_bufNewConst (bytes : List UInt8) : (bufNewConst bytes).view = bytes := by
  simp only [Buf.view, bufNewConst, List.drop_zero, List.take_length]

@[simp] theorem len_bufNewConst (bytes : List UInt8) : (bufNewConst bytes).len = bytes.length :=
  rfl

/-- Stripping within the window drops the bytes from the view. -/
theorem bufStrip_of_le {buf : Buf} {count : Nat} (within : count ≤ buf.view.length) :
    ∃ stripped, bufStrip buf count = some stripped ∧ stripped.view = buf.view.drop count := by
  rw [Buf.length_view] at within
  have inside : ¬((count : Int) > buf.len ∨ (count : Int) < 0) := by omega
  refine ⟨_, dif_neg inside, ?_⟩
  simp only [Buf.view, Int.toNat_natCast, List.drop_take, List.drop_drop]

/-- Stripping beyond the window is refused. -/
theorem bufStrip_of_lt {buf : Buf} {count : Nat} (beyond : buf.view.length < count) :
    bufStrip buf count = none := by
  rw [Buf.length_view] at beyond
  exact dif_pos (Or.inl (by omega))

theorem bufStrip_eq_some {buf stripped : Buf} {count : Nat}
    (done : bufStrip buf count = some stripped) :
    count ≤ buf.view.length ∧ stripped.view = buf.view.drop count := by
  by_cases within : count ≤ buf.view.length
  · obtain ⟨other, same, viewed⟩ := bufStrip_of_le within
    cases same.symm.trans done
    exact ⟨within, viewed⟩
  · rw [bufStrip_of_lt (Nat.lt_of_not_le within)] at done
    cases done

theorem bufTake_eq_some {buf taken : Buf} {count : Nat}
    (done : bufTake buf count = some taken) :
    count ≤ buf.view.length ∧ taken.view = buf.view.take (buf.view.length - count) := by
  simp only [bufTake] at done
  split at done
  · cases done
  · rename_i inside
    cases done
    simp only [Buf.length_view]
    refine ⟨by omega, ?_⟩
    simp only [Buf.view, Int.toNat_natCast, List.take_take]
    congr 1
    omega

/-- Cutting within the window keeps the front of the view. -/
theorem bufTake_of_le {buf : Buf} {count : Nat} (within : count ≤ buf.view.length) :
    ∃ taken, bufTake buf count = some taken ∧
      taken.view = buf.view.take (buf.view.length - count) := by
  rw [Buf.length_view] at within
  have inside : ¬((count : Int) > buf.len ∨ (count : Int) < 0) := by omega
  have taken : bufTake buf count = some _ := if_neg inside
  exact ⟨_, taken, (bufTake_eq_some taken).2⟩

/-- A read at a natural offset looks at the view only. -/
theorem readBytes_eq (buf : Buf) (offset length : Nat) :
    readBytes buf offset length =
      if offset + length ≤ buf.view.length then some ((buf.view.drop offset).take length)
      else none := by
  simp only [readBytes, Buf.length_view, Int.toNat_natCast]
  by_cases inside : offset + length ≤ buf.len
  · rw [if_neg (by omega), if_pos inside]
  · rw [if_pos (by omega), if_neg inside]

/-- Reading inside a window succeeds. -/
theorem readBytes_of_le {buf : Buf} {offset length : Nat}
    (inside : offset + length ≤ buf.view.length) :
    readBytes buf offset length = some ((buf.view.drop offset).take length) := by
  rw [readBytes_eq, if_pos inside]

theorem readEtherAddr_of_le {buf : Buf} {offset : Nat}
    (inside : offset + EtherAddr.length ≤ buf.view.length) :
    readEtherAddr buf offset = some (EtherAddr.ofOctets (buf.view.drop offset)) := by
  unfold readEtherAddr
  rw [readBytes_of_le inside, Option.map_some, EtherAddr.ofOctets_take]

theorem readLe16_of_le {buf : Buf} {offset : Nat} (inside : offset + 2 ≤ buf.view.length) :
    readLe16 buf offset =
      some (UInt16.ofNat (Octets.ofLE ((buf.view.drop offset).take 2))) := by
  unfold readLe16
  rw [readBytes_of_le inside, Option.map_some]

theorem readBe16_of_le {buf : Buf} {offset : Nat} (inside : offset + 2 ≤ buf.view.length) :
    readBe16 buf offset =
      some (UInt16.ofNat (Octets.ofBE ((buf.view.drop offset).take 2))) := by
  unfold readBe16
  rw [readBytes_of_le inside, Option.map_some]

/-- A read that succeeds returns the bytes at its offset. -/
theorem readBytes_eq_some {buf : Buf} {offset length : Nat} {bytes : List UInt8}
    (read : readBytes buf offset length = some bytes) :
    offset + length ≤ buf.view.length ∧ bytes = (buf.view.drop offset).take length := by
  rw [readBytes_eq] at read
  split at read
  · rename_i inside
    cases read
    exact ⟨inside, rfl⟩
  · cases read

/-- A read fails exactly if it reaches behind the window. -/
theorem readBytes_eq_none_iff {buf : Buf} {offset length : Nat} :
    readBytes buf offset length = none ↔ buf.len < offset + length := by
  rw [readBytes_eq, Buf.length_view]
  split
  · rename_i inside
    exact ⟨fun missing => (by cases missing), fun beyond => absurd inside (Nat.not_le.mpr beyond)⟩
  · rename_i beyond
    exact ⟨fun _ => Nat.lt_of_not_le beyond, fun _ => rfl⟩

section Short

variable (buf : Buf) (offset : Nat)

theorem readU8_eq_none_iff : readU8 buf offset = none ↔ buf.len < offset + 1 := by
  rw [readU8, Option.map_eq_none_iff, readBytes_eq_none_iff]

theorem readLe16_eq_none_iff : readLe16 buf offset = none ↔ buf.len < offset + 2 := by
  rw [readLe16, Option.map_eq_none_iff, readBytes_eq_none_iff]

theorem readBe16_eq_none_iff : readBe16 buf offset = none ↔ buf.len < offset + 2 := by
  rw [readBe16, Option.map_eq_none_iff, readBytes_eq_none_iff]

theorem readLe32_eq_none_iff : readLe32 buf offset = none ↔ buf.len < offset + 4 := by
  rw [readLe32, Option.map_eq_none_iff, readBytes_eq_none_iff]

theorem readEtherAddr_eq_none_iff : readEtherAddr buf offset = none ↔ buf.len < offset + 6 := by
  rw [readEtherAddr, Option.map_eq_none_iff, readBytes_eq_none_iff, EtherAddr.length]

end Short

/-- What a read at the front of a window returns. -/
theorem readBytes_zero_eq_some {buf : Buf} {length : Nat} {bytes : List UInt8}
    (read : readBytes buf 0 length = some bytes) :
    length ≤ buf.view.length ∧ bytes = buf.view.take length := by
  rw [← Nat.cast_zero] at read
  obtain ⟨inside, bytes⟩ := readBytes_eq_some read
  rw [Nat.zero_add] at inside
  rw [List.drop_zero] at bytes
  exact ⟨inside, bytes⟩

/-- A read inside the front part of a window looks at that part only. -/
theorem readBytes_front {buf : Buf} {front rest : List UInt8} (viewed : buf.view = front ++ rest)
    {offset length : Nat} (inside : offset + length ≤ front.length) :
    readBytes buf offset length = some ((front.drop offset).take length) := by
  have within : offset + length ≤ buf.view.length := by
    rw [viewed, List.length_append]
    omega
  rw [readBytes_of_le within, viewed, List.drop_append_of_le_length (by omega),
    List.take_append_of_le_length (by rw [List.length_drop]; omega)]

section Front

variable {buf : Buf} {front rest : List UInt8} {size offset : Nat}
  (viewed : buf.view = front ++ rest) (length : front.length = size)

include viewed length

theorem readU8_front (inside : offset + 1 ≤ size) :
    readU8 buf offset = some (((front.drop offset).take 1).getD 0 0) := by
  unfold readU8
  rw [readBytes_front viewed (length ▸ inside), Option.map_some]

theorem readLe16_front (inside : offset + 2 ≤ size) :
    readLe16 buf offset = some (UInt16.ofNat (Octets.ofLE ((front.drop offset).take 2))) := by
  unfold readLe16
  rw [readBytes_front viewed (length ▸ inside), Option.map_some]

theorem readBe16_front (inside : offset + 2 ≤ size) :
    readBe16 buf offset = some (UInt16.ofNat (Octets.ofBE ((front.drop offset).take 2))) := by
  unfold readBe16
  rw [readBytes_front viewed (length ▸ inside), Option.map_some]

theorem readLe32_front (inside : offset + 4 ≤ size) :
    readLe32 buf offset = some (UInt32.ofNat (Octets.ofLE ((front.drop offset).take 4))) := by
  unfold readLe32
  rw [readBytes_front viewed (length ▸ inside), Option.map_some]

theorem readEtherAddr_front (inside : offset + 6 ≤ size) :
    readEtherAddr buf offset =
      some (EtherAddr.ofOctets ((front.drop offset).take EtherAddr.length)) := by
  unfold readEtherAddr
  rw [readBytes_front viewed (length ▸ inside), Option.map_some]

end Front

/-- The window starts with the given bytes. -/
def Buf.StartsWith (buf : Buf) (bytes : List UInt8) : Prop :=
  buf.view.take bytes.length = bytes

/-- A write behind what has been written so far. -/
theorem writeBytes_behind {buf : Buf} {written bytes : List UInt8}
    (front : buf.StartsWith written) (fits : written.length + bytes.length ≤ buf.len) :
    ∃ next : Buf, writeBytes buf written.length bytes = ((bytes.length : Int), next) ∧
      next.len = buf.len ∧ next.StartsWith (written ++ bytes) := by
  have inside := buf.inBounds
  have within : ¬((written.length : Int) < 0 ∨
      (written.length : Int) + bytes.length > buf.len) := by
    omega
  refine ⟨_, dif_neg within, rfl, ?_⟩
  unfold Buf.StartsWith Buf.view at front ⊢
  rw [List.take_take, Nat.min_eq_left (by omega)] at front
  have kept : (buf.orig.take (buf.data + written.length)).drop buf.data = written := by
    rw [List.drop_take, Nat.add_sub_cancel_left, front]
  dsimp only [overwrite]
  rw [List.take_take, Int.toNat_natCast, List.length_append, Nat.min_eq_left (by omega),
    List.append_assoc, List.drop_append_of_le_length (by rw [List.length_take]; omega),
    kept, ← List.append_assoc, ← List.length_append, List.take_left]

end Owl
