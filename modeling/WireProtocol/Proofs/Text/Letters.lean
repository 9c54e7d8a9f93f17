/-!
# Letters

* `toNat_toUpper`, `toNat_toLower`: what a change of case does to the code of a character.
* `toUpper_eq_iff`: a character in front of the letters is the capital of no other one.
-/

namespace WireProtocol

theorem toNat_toUpper (c : Char) :
    c.toUpper.toNat = if 97 ≤ c.toNat ∧ c.toNat ≤ 122 then c.toNat - 32 else c.toNat := by
  have bounds : ('a'.val ≤ c.val ∧ c.val ≤ 'z'.val) ↔ 97 ≤ c.toNat ∧ c.toNat ≤ 122 := by
    rw [UInt32.le_iff_toNat_le, UInt32.le_iff_toNat_le]
    rfl
  unfold Char.toUpper
  split
  · rename_i small
    rw [if_pos (bounds.mp small)]
    have := bounds.mp small
    change (c.val + _).toNat = _
    rw [UInt32.toNat_add]
    change (c.toNat + 4294967264) % 4294967296 = _
    omega
  · rename_i other
    rw [if_neg (fun small => other (bounds.mpr small))]

theorem toNat_toLower (c : Char) :
    c.toLower.toNat = if 65 ≤ c.toNat ∧ c.toNat ≤ 90 then c.toNat + 32 else c.toNat := by
  have bounds : (c.val ≥ 'A'.val ∧ c.val ≤ 'Z'.val) ↔ 65 ≤ c.toNat ∧ c.toNat ≤ 90 := by
    rw [ge_iff_le, UInt32.le_iff_toNat_le, UInt32.le_iff_toNat_le]
    rfl
  unfold Char.toLower
  split
  · rename_i capital
    rw [if_pos (bounds.mp capital)]
    have := bounds.mp capital
    change (c.val + _).toNat = _
    rw [UInt32.toNat_add]
    change (c.toNat + 32) % 4294967296 = _
    omega
  · rename_i other
    rw [if_neg (fun capital => other (bounds.mpr capital))]

/-- A character in front of the letters is the capital of no other one. -/
theorem toUpper_eq_iff {c x : Char} (front : x.toNat < 65) : c.toUpper = x ↔ c = x := by
  rw [← Char.toNat_inj, ← Char.toNat_inj, toNat_toUpper]
  split <;> omega

end WireProtocol
