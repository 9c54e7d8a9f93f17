import WireProtocol.Codec.Method
import WireProtocol.Proofs.Bytes.Roles

/-!
# Bits that share an octet

* `testBit_packBits`: where each bit is.
* `unpackBits_packBits`: up to eight bits come back out of the octet that holds them.
* `packBits_unpackBits`: the bits of an octet are packed as its normal form.
-/

namespace WireProtocol

/-- Another bit in front moves the others one place up, and the last one out of a full octet. -/
private theorem toNat_packBits_cons_mod (bit : Bool) (bits : List Bool) :
    (packBits (bit :: bits)).toNat = (bit.toNat + 2 * (packBits bits).toNat) % UInt8.size := by
  have lowest : bit.toUInt8.toNat = bit.toNat := by cases bit <;> rfl
  have two : (2 : UInt8).toNat = 2 := rfl
  rw [packBits, UInt8.toNat_add, UInt8.toNat_mul, lowest, two]
  exact Nat.add_mod_mod _ _ _

theorem packBits_lt (bits : List Bool) : (packBits bits).toNat < 1 <<< bits.length := by
  induction bits with
  | nil => decide
  | cons bit bits ih =>
    have flag : bit.toNat ≤ 1 := Bool.toNat_le bit
    have below := Nat.mod_le (bit.toNat + 2 * (packBits bits).toNat) UInt8.size
    rw [toNat_packBits_cons_mod, List.length_cons, Nat.shiftLeft_succ]
    omega

theorem toNat_packBits_cons {bit : Bool} {bits : List Bool} (room : bits.length < maxBitGroup) :
    (packBits (bit :: bits)).toNat = bit.toNat + 2 * (packBits bits).toNat := by
  have small : (packBits bits).toNat < 1 <<< 7 := by
    refine Nat.lt_of_lt_of_le (packBits_lt bits) ?_
    rw [Nat.one_shiftLeft, Nat.one_shiftLeft]
    exact Nat.pow_le_pow_right (by decide) (Nat.le_of_lt_succ room)
  have limit : 1 <<< 7 = 128 := rfl
  have flag : bit.toNat ≤ 1 := Bool.toNat_le bit
  rw [toNat_packBits_cons_mod]
  apply Nat.mod_eq_of_lt
  change _ < 256
  omega

/-- The first bit is in the least significant place, and the places past the last bit are clear. -/
theorem testBit_packBits {bits : List Bool} (room : bits.length ≤ maxBitGroup) (place : Nat) :
    (packBits bits).toNat.testBit place = bits.getD place false := by
  induction bits generalizing place with
  | nil => simp [packBits]
  | cons bit bits ih =>
    rw [toNat_packBits_cons room]
    cases place with
    | zero => cases bit <;> simp [Nat.testBit_zero]
    | succ place =>
      have rest : (bit.toNat + 2 * (packBits bits).toNat) / 2 = (packBits bits).toNat := by
        have flag : bit.toNat ≤ 1 := Bool.toNat_le bit
        omega
      rw [Nat.testBit_succ, rest, ih (Nat.le_of_succ_le room), List.getD_cons_succ]

@[simp] theorem length_unpackBits (count : Nat) (octet : UInt8) :
    (unpackBits count octet).length = count := by
  rw [unpackBits, List.length_map, List.length_range]

theorem getD_unpackBits (count : Nat) (octet : UInt8) (place : Nat) :
    (unpackBits count octet).getD place false =
      (decide (place < count) && octet.toNat.testBit place) := by
  by_cases low : place < count
  · simp [unpackBits, low]
  · simp [unpackBits, low]

/-- Up to eight bits come back out of the octet that holds them. -/
theorem unpackBits_packBits {bits : List Bool} (room : bits.length ≤ maxBitGroup) :
    unpackBits bits.length (packBits bits) = bits := by
  apply List.ext_getElem (length_unpackBits _ _)
  intro place _ low
  simp only [unpackBits, List.getElem_map, List.getElem_range]
  rw [testBit_packBits room]
  simp [low]

/-- The bits of an octet are packed as the octet without the places past the last bit. -/
theorem packBits_unpackBits {count : Nat} (room : count ≤ maxBitGroup) (octet : UInt8) :
    packBits (unpackBits count octet) = (OctetRole.flags count).normal octet := by
  apply UInt8.toNat_inj.mp
  apply Nat.eq_of_testBit_eq
  intro place
  rw [testBit_packBits (by rwa [length_unpackBits]), getD_unpackBits,
    OctetRole.testBit_normal_flags]

end WireProtocol
