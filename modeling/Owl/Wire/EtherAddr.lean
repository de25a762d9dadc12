import Owl.Foundation.Octets

/-! # Ethernet addresses

An Ethernet address is its six octets. `compareEtherAddr` is `memcmp` on them,
which orders addresses as 48-bit big-endian numbers.
-/

namespace Owl

/-- `struct ether_addr`. -/
structure EtherAddr where
  octet0 : UInt8
  octet1 : UInt8
  octet2 : UInt8
  octet3 : UInt8
  octet4 : UInt8
  octet5 : UInt8
  deriving DecidableEq, Repr, Inhabited

namespace EtherAddr

/-- `ETHER_ADDR_LEN`. -/
def length : Nat := 6

/-- The octets of an address in transmission order. -/
def octets (addr : EtherAddr) : List UInt8 :=
  [addr.octet0, addr.octet1, addr.octet2, addr.octet3, addr.octet4, addr.octet5]

/-- The address held by the first six octets of a string. -/
def ofOctets (bytes : List UInt8) : EtherAddr :=
  ⟨bytes.getD 0 0, bytes.getD 1 0, bytes.getD 2 0, bytes.getD 3 0, bytes.getD 4 0, bytes.getD 5 0⟩

@[simp] theorem length_octets (addr : EtherAddr) : addr.octets.length = 6 := rfl

@[simp] theorem ofOctets_octets (addr : EtherAddr) : ofOctets addr.octets = addr := rfl

/-- Reading an address looks at six octets only. -/
theorem ofOctets_take (bytes : List UInt8) : ofOctets (bytes.take length) = ofOctets bytes := by
  unfold ofOctets length
  simp only [List.getD_eq_getElem?_getD, List.getElem?_take, Nat.reduceLT, ↓reduceIte]

/-- An address that is read from a string has its first bytes. -/
theorem octets_ofOctets {bytes : List UInt8} (enough : 6 ≤ bytes.length) :
    (ofOctets bytes).octets = bytes.take 6 := by
  match bytes with
  | _ :: _ :: _ :: _ :: _ :: _ :: rest => rfl
  | [] | [_] | [_, _] | [_, _, _] | [_, _, _, _] | [_, _, _, _, _] =>
      simp only [List.length_cons, List.length_nil] at enough
      omega

theorem octets_injective : Function.Injective octets := by
  intro left right equal
  rw [← ofOctets_octets left, equal, ofOctets_octets]

/-- The address as a 48-bit big-endian number. -/
def toNat (addr : EtherAddr) : Nat :=
  Octets.ofBE addr.octets

theorem toNat_injective : Function.Injective toNat := fun left right equal =>
  octets_injective (Octets.ofBE_injective (by simp only [length_octets]) equal)

/-- `ETHER_BROADCAST`. -/
def broadcast : EtherAddr := ⟨0xff, 0xff, 0xff, 0xff, 0xff, 0xff⟩

end EtherAddr

/-- `compare_ether_addr`: `memcmp` over the six octets. -/
def compareEtherAddr (left right : EtherAddr) : Int :=
  Octets.compare left.octets right.octets

theorem compareEtherAddr_eq_zero_iff {left right : EtherAddr} :
    compareEtherAddr left right = 0 ↔ left = right := by
  rw [compareEtherAddr, Octets.compare_eq_zero_iff (by simp only [EtherAddr.length_octets])]
  exact EtherAddr.octets_injective.eq_iff

theorem compareEtherAddr_neg_iff {left right : EtherAddr} :
    compareEtherAddr left right < 0 ↔ left.toNat < right.toNat :=
  Octets.compare_neg_iff (by simp only [EtherAddr.length_octets])

/-- A comparison is not positive exactly when the first address is not the greater one. -/
theorem compareEtherAddr_nonpos_iff {left right : EtherAddr} :
    compareEtherAddr left right ≤ 0 ↔ left.toNat ≤ right.toNat := by
  rw [le_iff_lt_or_eq, compareEtherAddr_neg_iff, compareEtherAddr_eq_zero_iff,
    le_iff_lt_or_eq, EtherAddr.toNat_injective.eq_iff]

end Owl
