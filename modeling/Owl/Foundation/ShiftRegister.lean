import Mathlib.Data.BitVec
import Mathlib.Data.List.GetD

/-! # Linear feedback shift registers

A register that moves down by one place and adds its polynomial whenever a one
falls out. The register is linear over exclusive or (`ShiftRegister.shifts_xor`),
so feeding it a message bit by bit is the same as adding the whole message first
and shifting afterwards (`ShiftRegister.feed_eq_shifts`), and a polynomial with
its top bit set loses nothing (`ShiftRegister.feed_injective`).
-/

namespace ShiftRegister

variable {width : Nat}

/-- One shift of the register. -/
def shift (poly register : BitVec width) : BitVec width :=
  (register >>> 1) ^^^ if register.getLsbD 0 then poly else 0

/-- A number of shifts. -/
def shifts (poly : BitVec width) : Nat → BitVec width → BitVec width
  | 0, register => register
  | count + 1, register => shifts poly count (shift poly register)

/-- One shift with a bit of the message at the input. -/
def feedBit (poly register : BitVec width) (bit : Bool) : BitVec width :=
  (register >>> 1) ^^^ if register.getLsbD 0 ^^ bit then poly else 0

/-- The register after a message. -/
def feed (poly register : BitVec width) (bits : List Bool) : BitVec width :=
  bits.foldl (feedBit poly) register

/-- The word whose lowest bits are the given ones, the first one lowest. -/
def word (width : Nat) (bits : List Bool) : BitVec width :=
  (BitVec.ofBoolListLE bits).setWidth width

variable (poly : BitVec width)

theorem getLsbD_word (bits : List Bool) (i : Nat) :
    (word width bits).getLsbD i = (decide (i < width) && bits.getD i false) := by
  rw [word, BitVec.getLsbD_setWidth, BitVec.getLsbD_ofBoolListLE]

theorem feed_append (register : BitVec width) (front rest : List Bool) :
    feed poly register (front ++ rest) = feed poly (feed poly register front) rest :=
  List.foldl_append

/-! ## Linearity -/

theorem shift_xor (first second : BitVec width) :
    shift poly (first ^^^ second) = shift poly first ^^^ shift poly second := by
  unfold shift
  rw [BitVec.ushiftRight_xor_distrib, BitVec.getLsbD_xor]
  cases first.getLsbD 0 <;> cases second.getLsbD 0 <;>
    simp only [Bool.xor_false, Bool.xor_true, Bool.not_false, Bool.not_true, Bool.false_eq_true,
      ↓reduceIte, BitVec.ofNat_eq_ofNat, BitVec.xor_zero]
  · ac_rfl
  · ac_rfl
  · rw [BitVec.xor_assoc, BitVec.xor_comm poly, BitVec.xor_assoc, BitVec.xor_self,
      BitVec.xor_zero]

theorem shifts_xor (count : Nat) (first second : BitVec width) :
    shifts poly count (first ^^^ second) =
      shifts poly count first ^^^ shifts poly count second := by
  induction count generalizing first second with
  | zero => rfl
  | succ count ih => simp only [shifts, shift_xor, ih]

/-- A register whose low bits are clear only moves down. -/
theorem shifts_of_clear {count : Nat} {register : BitVec width}
    (clear : ∀ i < count, register.getLsbD i = false) :
    shifts poly count register = register >>> count := by
  induction count generalizing register with
  | zero => rw [shifts, BitVec.ushiftRight_zero]
  | succ count ih =>
      have low : register.getLsbD 0 = false := clear 0 (Nat.succ_pos count)
      have moved : shift poly register = register >>> 1 := by
        rw [shift, low]
        simp only [Bool.false_eq_true, ↓reduceIte, BitVec.ofNat_eq_ofNat, BitVec.xor_zero]
      rw [shifts, moved, ih, ← BitVec.shiftRight_add, Nat.add_comm]
      intro i within
      rw [BitVec.getLsbD_ushiftRight]
      exact clear (1 + i) (by omega)

/-- The bits that fall out decide what is added to the others. -/
theorem shifts_split (count : Nat) (register : BitVec width) :
    shifts poly count register =
      shifts poly count ((register.setWidth count).setWidth width) ^^^ (register >>> count) := by
  have clear (i : Nat) (within : i < count) :
      ((register.setWidth count).setWidth width ^^^ register).getLsbD i = false := by
    rw [BitVec.getLsbD_xor, BitVec.getLsbD_setWidth, BitVec.getLsbD_setWidth,
      decide_eq_true within, Bool.true_and]
    by_cases inside : i < width
    · rw [decide_eq_true inside, Bool.true_and, Bool.xor_self]
    · rw [BitVec.getLsbD_of_ge register i (Nat.le_of_not_lt inside), Bool.and_false, Bool.xor_self]
  have gone : (register.setWidth count).setWidth width >>> count = 0 := by
    apply BitVec.eq_of_getLsbD_eq
    intro i _
    rw [BitVec.getLsbD_ushiftRight, BitVec.getLsbD_setWidth, BitVec.getLsbD_setWidth,
      decide_eq_false (by omega : ¬count + i < count), Bool.false_and, Bool.and_false,
      BitVec.ofNat_eq_ofNat, BitVec.getLsbD_zero]
  have moved := shifts_of_clear poly clear
  rw [shifts_xor, BitVec.ushiftRight_xor_distrib, gone, BitVec.ofNat_eq_ofNat,
    BitVec.zero_xor] at moved
  rw [← moved, ← BitVec.xor_assoc, BitVec.xor_self, BitVec.zero_xor]

/-! ## Feeding a message -/

theorem word_cons_ushiftRight {bit : Bool} {bits : List Bool} (fits : bits.length < width) :
    word width (bit :: bits) >>> 1 = word width bits := by
  apply BitVec.eq_of_getLsbD_eq
  intro i _
  rw [BitVec.getLsbD_ushiftRight, getLsbD_word, getLsbD_word, Nat.add_comm 1 i,
    List.getD_cons_succ]
  by_cases inside : i < bits.length
  · rw [decide_eq_true (by omega : i + 1 < width), decide_eq_true (by omega : i < width)]
  · rw [List.getD_eq_default _ _ (Nat.le_of_not_lt inside), Bool.and_false, Bool.and_false]

/-- Adding the message to the register feeds its first bit and leaves the others added. -/
theorem shift_xor_word_cons (register : BitVec width) {bit : Bool} {bits : List Bool}
    (fits : bits.length < width) :
    shift poly (register ^^^ word width (bit :: bits)) =
      feedBit poly register bit ^^^ word width bits := by
  have low : (word width (bit :: bits)).getLsbD 0 = bit := by
    rw [getLsbD_word, decide_eq_true (by omega : 0 < width), Bool.true_and, List.getD_cons_zero]
  unfold shift feedBit
  rw [BitVec.ushiftRight_xor_distrib, word_cons_ushiftRight fits, BitVec.getLsbD_xor, low]
  ac_rfl

/-- A message that fits into the register can be added before the shifts. -/
theorem feed_eq_shifts (register : BitVec width) {bits : List Bool}
    (fits : bits.length ≤ width) :
    feed poly register bits = shifts poly bits.length (register ^^^ word width bits) := by
  induction bits generalizing register with
  | nil =>
      have empty : word width [] = 0 := by
        apply BitVec.eq_of_getLsbD_eq
        intro i _
        rw [getLsbD_word, List.getD_nil, Bool.and_false, BitVec.ofNat_eq_ofNat, BitVec.getLsbD_zero]
      rw [empty, BitVec.ofNat_eq_ofNat, BitVec.xor_zero, feed, List.foldl_nil, List.length_nil,
        shifts]
  | cons bit bits ih =>
      have shorter : bits.length < width := fits
      calc feed poly register (bit :: bits)
          = feed poly (feedBit poly register bit) bits := List.foldl_cons ..
        _ = shifts poly bits.length (feedBit poly register bit ^^^ word width bits) :=
            ih _ (Nat.le_of_lt shorter)
        _ = shifts poly (bits.length + 1) (register ^^^ word width (bit :: bits)) := by
            rw [shifts, shift_xor_word_cons poly register shorter]

/-! ## Nothing is lost -/

variable {poly} (top : poly.msb = true)

include top

/-- A register that shifts to zero was zero. -/
theorem eq_zero_of_shift {register : BitVec width} (gone : shift poly register = 0) :
    register = 0 := by
  have low : register.getLsbD 0 = false := by
    by_contra set
    have highest := congrArg BitVec.msb gone
    rw [shift, if_pos (Bool.eq_true_of_not_eq_false set), BitVec.msb_xor, BitVec.msb_ushiftRight,
      top] at highest
    simp at highest
  rw [shift, low] at gone
  simp only [Bool.false_eq_true, ↓reduceIte, BitVec.ofNat_eq_ofNat, BitVec.xor_zero] at gone
  apply BitVec.eq_of_getLsbD_eq
  intro i _
  rw [BitVec.ofNat_eq_ofNat, BitVec.getLsbD_zero]
  cases i with
  | zero => exact low
  | succ i =>
      have bit := congrArg (fun register => register.getLsbD i) gone
      simpa only [BitVec.getLsbD_ushiftRight, BitVec.getLsbD_zero, Nat.add_comm 1 i] using bit

theorem shift_injective : Function.Injective (shift poly) := by
  intro first second same
  apply BitVec.xor_eq_zero_iff.mp
  apply eq_zero_of_shift top
  rw [shift_xor, same, BitVec.xor_self, BitVec.ofNat_eq_ofNat]

theorem feedBit_injective (bit : Bool) :
    Function.Injective fun register => feedBit poly register bit := by
  have positive : 0 < width := by
    apply Nat.pos_of_ne_zero
    intro none
    cases (BitVec.msb_of_zero_length none poly).symm.trans top
  intro first second same
  have added := fun register : BitVec width =>
    @shift_xor_word_cons width poly register bit [] positive
  apply (BitVec.xor_left_inj (word width [bit])).mp
  apply shift_injective top
  rw [added, added]
  exact congrArg (· ^^^ word width []) same

/-- Registers that differ still differ after any message. -/
theorem feed_injective (bits : List Bool) :
    Function.Injective fun register => feed poly register bits := by
  induction bits with
  | nil => exact Function.injective_id
  | cons bit bits ih => exact ih.comp (feedBit_injective top bit)

end ShiftRegister
