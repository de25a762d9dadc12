import Owl.Foundation.Octets
import Owl.Foundation.ShiftRegister
import Owl.Wire.Crc32

/-! # The check sequence bit by bit

The table of `crc32.c` holds eight shifts of the register for every byte, so one
round of the loop feeds a byte to the register, lowest bit first
(`toBitVec_crc32Step`). The checksum is therefore the one computed bit by bit, and
a message followed by its own checksum has a fixed checksum.
-/

namespace Owl

open ShiftRegister

/-- The polynomial of the check sequence, reflected. -/
def crc32Poly : BitVec 32 := 0xEDB88320

/-- The bits of a byte string in the order in which they are sent. -/
def messageBits (bytes : List UInt8) : List Bool :=
  bytes.flatMap fun byte => List.ofFn fun i : Fin 8 => byte.toBitVec.getLsbD i

/-- The checksum with one shift per bit. -/
def crc32Bitwise (bytes : List UInt8) : UInt32 :=
  ⟨~~~feed crc32Poly 0xFFFFFFFF (messageBits bytes)⟩

/-! ## Bytes as bits -/

theorem messageBits_append (front rest : List UInt8) :
    messageBits (front ++ rest) = messageBits front ++ messageBits rest :=
  List.flatMap_append

theorem messageBits_cons (byte : UInt8) (rest : List UInt8) :
    messageBits (byte :: rest) =
      (List.ofFn fun i : Fin 8 => byte.toBitVec.getLsbD i) ++ messageBits rest :=
  List.flatMap_cons

theorem length_messageBits (bytes : List UInt8) :
    (messageBits bytes).length = 8 * bytes.length := by
  induction bytes with
  | nil => rfl
  | cons byte rest ih =>
      rw [messageBits_cons, List.length_append, List.length_ofFn, ih, List.length_cons]
      omega

/-- The bits of a little-endian number are the bits of the number. -/
theorem getD_messageBits_toLE (size value i : Nat) :
    (messageBits (Octets.toLE size value)).getD i false =
      (decide (i < 8 * size) && value.testBit i) := by
  induction size generalizing value i with
  | zero => simp [messageBits, Octets.toLE]
  | succ size ih =>
      rw [Octets.toLE, messageBits_cons]
      by_cases low : i < 8
      · rw [List.getD_append _ _ _ _ (by rwa [List.length_ofFn]), List.getD_eq_getElem _ _
          (by rwa [List.length_ofFn]), List.getElem_ofFn, decide_eq_true (by omega), Bool.true_and,
          UInt8.toBitVec_ofNat', BitVec.getLsbD_ofNat, decide_eq_true low, Bool.true_and]
      · have later : i - 8 + 8 = i := by omega
        have shorter : decide (i - 8 < 8 * size) = decide (i < 8 * (size + 1)) :=
          decide_eq_decide.mpr (by omega)
        rw [List.getD_append_right _ _ _ _ (by rw [List.length_ofFn]; omega), List.length_ofFn, ih,
          show 256 = 2 ^ 8 from rfl, Nat.testBit_div_two_pow, later, shorter]

/-- A 32-bit number in little-endian order is the word of its bits. -/
theorem word_messageBits_toLE (value : UInt32) :
    word 32 (messageBits (Octets.toLE 4 value.toNat)) = value.toBitVec := by
  apply BitVec.eq_of_getLsbD_eq
  intro i within
  rw [getLsbD_word, getD_messageBits_toLE, decide_eq_true within, Bool.true_and, Bool.true_and]
  rfl

theorem word_messageBits_byte (byte : UInt8) :
    word 32 (messageBits [byte]) = byte.toUInt32.toBitVec := by
  have image : [byte] = Octets.toLE 1 byte.toNat := by
    rw [Octets.toLE, Octets.toLE, UInt8.ofNat_toNat]
  apply BitVec.eq_of_getLsbD_eq
  intro i within
  rw [image, getLsbD_word, getD_messageBits_toLE, decide_eq_true within, Bool.true_and,
    UInt8.toBitVec_toUInt32, BitVec.getLsbD_setWidth, decide_eq_true within, Bool.true_and]
  by_cases low : i < 8
  · rw [decide_eq_true low, Bool.true_and]
    rfl
  · rw [decide_eq_false low, Bool.false_and,
      BitVec.getLsbD_of_ge byte.toBitVec i (Nat.le_of_not_lt low)]

/-! ## The table -/

/-- Every constant of the table is the outcome of eight shifts. -/
theorem crc32Tab_eq_map :
    crc32Tab = (List.range 256).map fun i => ⟨shifts crc32Poly 8 (BitVec.ofNat 32 i)⟩ := by
  decide +kernel

theorem toBitVec_crc32Tab {i : Nat} (inside : i < 256) :
    (crc32Tab.getD i 0).toBitVec = shifts crc32Poly 8 (BitVec.ofNat 32 i) := by
  have within : i < ((List.range 256).map fun i =>
      UInt32.ofBitVec (shifts crc32Poly 8 (BitVec.ofNat 32 i))).length := by
    rwa [List.length_map, List.length_range]
  rw [crc32Tab_eq_map, List.getD_eq_getElem _ _ within, List.getElem_map, List.getElem_range]

/-- A round of the loop feeds one byte to the register. -/
theorem toBitVec_crc32Step (crc : UInt32) (byte : UInt8) :
    (crc32Step crc byte).toBitVec = feed crc32Poly crc.toBitVec (messageBits [byte]) := by
  have eight : (messageBits [byte]).length = 8 := length_messageBits [byte]
  have index : ((crc ^^^ byte.toUInt32) &&& 0xff).toNat = (crc ^^^ byte.toUInt32).toNat % 256 :=
    Nat.and_two_pow_sub_one_eq_mod _ 8
  have low : BitVec.ofNat 32 ((crc ^^^ byte.toUInt32).toNat % 256) =
      ((crc ^^^ byte.toUInt32).toBitVec.setWidth 8).setWidth 32 := by
    apply BitVec.eq_of_toNat_eq
    rw [BitVec.toNat_ofNat, BitVec.toNat_setWidth, BitVec.toNat_setWidth]
    rfl
  have gone : byte.toUInt32.toBitVec >>> 8 = 0#32 := by
    apply BitVec.eq_of_toNat_eq
    rw [UInt8.toBitVec_toUInt32, BitVec.toNat_ushiftRight, BitVec.toNat_setWidth_of_le (by decide),
      Nat.shiftRight_eq_div_pow]
    exact Nat.div_eq_of_lt byte.toNat_lt
  have moved : (crc >>> 8).toBitVec = (crc ^^^ byte.toUInt32).toBitVec >>> 8 := by
    rw [UInt32.toBitVec_xor, BitVec.ushiftRight_xor_distrib, gone, BitVec.xor_zero]
    rfl
  rw [feed_eq_shifts crc32Poly _ (by omega), eight, word_messageBits_byte, ← UInt32.toBitVec_xor,
    shifts_split, crc32Step, UInt32.toBitVec_xor, index,
    toBitVec_crc32Tab (Nat.mod_lt _ (by decide)), low, moved]

/-- The loop feeds the whole message. -/
theorem toBitVec_foldl_crc32Step (crc : UInt32) (bytes : List UInt8) :
    (bytes.foldl crc32Step crc).toBitVec = feed crc32Poly crc.toBitVec (messageBits bytes) := by
  induction bytes generalizing crc with
  | nil => rfl
  | cons byte rest ih =>
      rw [List.foldl_cons, ih, toBitVec_crc32Step, ← feed_append, ← messageBits_append,
        List.singleton_append]

theorem crc32_eq_crc32Bitwise (bytes : List UInt8) : crc32 bytes = crc32Bitwise bytes := by
  apply UInt32.toBitVec_inj.mp
  rw [crc32, UInt32.toBitVec_xor, toBitVec_foldl_crc32Step]
  exact BitVec.xor_allOnes

/-- Bytes in front of a message leave its checksum alone only if their own is zero. -/
theorem crc32_append_eq_iff (front rest : List UInt8) :
    crc32 (front ++ rest) = crc32 rest ↔ crc32 front = 0 := by
  have lossless := feed_injective (rfl : crc32Poly.msb = true) (messageBits rest)
  have empty : (0 : UInt32).toBitVec = ~~~(0xFFFFFFFF : BitVec 32) := rfl
  rw [← UInt32.toBitVec_inj, ← UInt32.toBitVec_inj, crc32_eq_crc32Bitwise, crc32_eq_crc32Bitwise,
    crc32_eq_crc32Bitwise, crc32Bitwise, crc32Bitwise, crc32Bitwise, empty, BitVec.not_inj,
    BitVec.not_inj, messageBits_append, feed_append]
  exact lossless.eq_iff

/-! ## The residue -/

/-- Feeding the register its own complement leaves the shifts of a full register. -/
theorem crc32_append_checksum (message : List UInt8) :
    crc32 (message ++ Octets.toLE 4 (crc32 message).toNat) = 0x2144DF1C := by
  have fits : (messageBits (Octets.toLE 4 (crc32 message).toNat)).length = 32 := by
    rw [length_messageBits, Octets.length_toLE]
  have checksum : (crc32 message).toBitVec =
      ~~~feed crc32Poly 0xFFFFFFFF (messageBits message) := by
    rw [crc32_eq_crc32Bitwise, crc32Bitwise]
  have full (register : BitVec 32) : register ^^^ ~~~register = BitVec.allOnes 32 := by
    rw [← BitVec.xor_allOnes, ← BitVec.xor_assoc, BitVec.xor_self, BitVec.zero_xor]
  rw [crc32_eq_crc32Bitwise, crc32Bitwise, messageBits_append, feed_append,
    feed_eq_shifts crc32Poly _ (Nat.le_of_eq fits), fits, word_messageBits_toLE, checksum, full]
  decide +kernel

/-- The table-driven checksum is the bitwise one, and a message with its checksum
appended has the fixed residue. -/
theorem crc32_bitwise_residue :
    (∀ bytes, crc32 bytes = crc32Bitwise bytes) ∧
      ∀ message, crc32 (message ++ Octets.toLE 4 (crc32 message).toNat) = 0x2144DF1C :=
  ⟨crc32_eq_crc32Bitwise, crc32_append_checksum⟩

end Owl
