import Mathlib.Data.Nat.ModEq
import Mathlib.Tactic.Ring

/-! # Fixed-width numbers in byte strings

Little-endian and big-endian images of a natural number, the number read back
from them, and the byte-wise comparison of two strings. A string of fixed
length compares as its big-endian number (`Octets.compare_neg_iff`).
-/

namespace Octets

/-- The `width` low bytes of a number, least significant first. -/
def toLE : (width value : Nat) → List UInt8
  | 0, _ => []
  | width + 1, value => UInt8.ofNat value :: toLE width (value / 256)

/-- The number with the given bytes, least significant first. -/
def ofLE : List UInt8 → Nat
  | [] => 0
  | octet :: rest => octet.toNat + 256 * ofLE rest

/-- The `width` low bytes of a number, most significant first. -/
def toBE : (width value : Nat) → List UInt8
  | 0, _ => []
  | width + 1, value => UInt8.ofNat (value / 256 ^ width) :: toBE width value

/-- The number with the given bytes, most significant first. -/
def ofBE : List UInt8 → Nat
  | [] => 0
  | octet :: rest => octet.toNat * 256 ^ rest.length + ofBE rest

@[simp] theorem length_toLE (width value : Nat) : (toLE width value).length = width := by
  induction width generalizing value with
  | zero => rfl
  | succ width ih => simp only [toLE, List.length_cons, ih]

@[simp] theorem length_toBE (width value : Nat) : (toBE width value).length = width := by
  induction width with
  | zero => rfl
  | succ width ih => simp only [toBE, List.length_cons, ih]

/-- Reading back a little-endian image drops the bits beyond its width. -/
theorem ofLE_toLE (width value : Nat) : ofLE (toLE width value) = value % 256 ^ width := by
  induction width generalizing value with
  | zero => simp only [toLE, ofLE, pow_zero, Nat.mod_one]
  | succ width ih =>
      simp only [toLE, ofLE, ih, UInt8.toNat_ofNat', Nat.reducePow]
      rw [pow_succ', Nat.mod_mul]

/-- Reading back a big-endian image drops the bits beyond its width. -/
theorem ofBE_toBE (width value : Nat) : ofBE (toBE width value) = value % 256 ^ width := by
  induction width with
  | zero => simp only [toBE, ofBE, pow_zero, Nat.mod_one]
  | succ width ih =>
      simp only [toBE, ofBE, length_toBE, ih, UInt8.toNat_ofNat', Nat.reducePow]
      rw [Nat.mod_pow_succ, Nat.add_comm, Nat.mul_comm]

theorem ofBE_lt (octets : List UInt8) : ofBE octets < 256 ^ octets.length := by
  induction octets with
  | nil => simp only [ofBE, List.length_nil, pow_zero, Nat.zero_lt_one]
  | cons octet rest ih =>
      have bound : octet.toNat + 1 ≤ 256 := octet.toNat_lt
      calc ofBE (octet :: rest) < octet.toNat * 256 ^ rest.length + 256 ^ rest.length := by
            simp only [ofBE]
            omega
        _ = (octet.toNat + 1) * 256 ^ rest.length := by ring
        _ ≤ 256 * 256 ^ rest.length := Nat.mul_le_mul_right _ bound
        _ = 256 ^ (octet :: rest).length := by rw [List.length_cons, pow_succ']

/-- Bytes are the little-endian image of their number. -/
theorem toLE_ofLE (octets : List UInt8) : toLE octets.length (ofLE octets) = octets := by
  induction octets with
  | nil => rfl
  | cons octet rest ih =>
      have bound := octet.toNat_lt
      have low : UInt8.ofNat (octet.toNat + 256 * ofLE rest) = octet := by
        apply UInt8.toNat_inj.mp
        rw [UInt8.toNat_ofNat']
        omega
      have high : (octet.toNat + 256 * ofLE rest) / 256 = ofLE rest := by omega
      rw [List.length_cons, ofLE, toLE, low, high, ih]

theorem ofLE_lt (octets : List UInt8) : ofLE octets < 256 ^ octets.length := by
  rw [← toLE_ofLE octets, ofLE_toLE, length_toLE]
  exact Nat.mod_lt _ (Nat.pow_pos (by decide))

/-- Byte-wise comparison: the sign is decided by the first differing byte. -/
def compare : List UInt8 → List UInt8 → Int
  | first :: firsts, second :: seconds =>
      if first = second then compare firsts seconds
      else (first.toNat : Int) - (second.toNat : Int)
  | _, _ => 0

/-- A smaller leading byte outweighs everything behind it. -/
private theorem ofBE_cons_lt {first second : UInt8} {firsts seconds : List UInt8}
    (same : firsts.length = seconds.length) (smaller : first.toNat < second.toNat) :
    ofBE (first :: firsts) < ofBE (second :: seconds) := by
  have bound := ofBE_lt firsts
  calc ofBE (first :: firsts) < (first.toNat + 1) * 256 ^ firsts.length := by
        simp only [ofBE, add_mul, one_mul]
        omega
    _ ≤ second.toNat * 256 ^ firsts.length := Nat.mul_le_mul_right _ smaller
    _ ≤ ofBE (second :: seconds) := by
        simp only [ofBE, same]
        omega

/-- On strings of one length, comparison is the order of the big-endian numbers. -/
theorem compare_neg_iff {left right : List UInt8} (same : left.length = right.length) :
    compare left right < 0 ↔ ofBE left < ofBE right := by
  induction left generalizing right with
  | nil =>
      cases right with
      | nil => simp only [compare, ofBE, lt_self_iff_false]
      | cons _ _ => cases same
  | cons first firsts ih =>
      cases right with
      | nil => cases same
      | cons second seconds =>
          have tails : firsts.length = seconds.length := Nat.succ.inj same
          by_cases equal : first = second
          · subst equal
            simp only [compare, ↓reduceIte, ih tails, ofBE, tails]
            omega
          · have different : first.toNat ≠ second.toNat :=
              fun clash => equal (UInt8.toNat_inj.mp clash)
            simp only [compare, equal, ↓reduceIte]
            rcases Nat.lt_or_gt_of_ne different with below | above
            · exact iff_of_true (by omega) (ofBE_cons_lt tails below)
            · exact iff_of_false (by omega)
                (Nat.lt_asymm (ofBE_cons_lt tails.symm above))

/-- On strings of one length, comparison vanishes on equal strings only. -/
theorem compare_eq_zero_iff {left right : List UInt8} (same : left.length = right.length) :
    compare left right = 0 ↔ left = right := by
  induction left generalizing right with
  | nil =>
      cases right with
      | nil => simp only [compare]
      | cons _ _ => cases same
  | cons first firsts ih =>
      cases right with
      | nil => cases same
      | cons second seconds =>
          by_cases equal : first = second
          · subst equal
            simp only [compare, ↓reduceIte, ih (Nat.succ.inj same), List.cons.injEq, true_and]
          · have different : first.toNat ≠ second.toNat :=
              fun clash => equal (UInt8.toNat_inj.mp clash)
            simp only [compare, equal, ↓reduceIte, List.cons.injEq, false_and, iff_false]
            omega

/-- Strings of one length are determined by their big-endian number. -/
theorem ofBE_injective {left right : List UInt8} (same : left.length = right.length)
    (equal : ofBE left = ofBE right) : left = right := by
  induction left generalizing right with
  | nil =>
      cases right with
      | nil => rfl
      | cons _ _ => cases same
  | cons first firsts ih =>
      cases right with
      | nil => cases same
      | cons second seconds =>
          have tails : firsts.length = seconds.length := Nat.succ.inj same
          have leading : first.toNat = second.toNat := by
            rcases Nat.lt_trichotomy first.toNat second.toNat with below | middle | above
            · exact absurd equal (ofBE_cons_lt tails below).ne
            · exact middle
            · exact absurd equal.symm (ofBE_cons_lt tails.symm above).ne
          have heads : first = second := UInt8.toNat_inj.mp leading
          subst heads
          simp only [ofBE, tails, Nat.add_left_cancel_iff] at equal
          rw [ih tails equal]

/-- Bytes are the big-endian image of their number. -/
theorem toBE_ofBE (octets : List UInt8) : toBE octets.length (ofBE octets) = octets := by
  apply ofBE_injective (length_toBE _ _)
  rw [ofBE_toBE, Nat.mod_eq_of_lt (ofBE_lt octets)]

end Octets
