/-!
# Big-endian numbers

Octet strings, and the numbers they carry with the most significant octet first.

* `Bytes`: a string of octets.
* `BigEndian.capacity`: the bound of the numbers of a width.
* `BigEndian.encode`, `BigEndian.decode`: a number of a given width and back.
* `BigEndian.decode_encode`: what was written reads back, as far as the width reaches.
-/

namespace WireProtocol

/-- A string of octets. -/
abbrev Bytes := List UInt8

namespace BigEndian

/-- How many numbers a number of octets can tell apart. -/
def capacity : (width : Nat) → Nat
  | 0 => 1
  | width + 1 => 256 * capacity width

/-- The `width` least significant octets of a number, the most significant of them first. -/
def encode : (width n : Nat) → Bytes
  | 0, _ => []
  | width + 1, n => UInt8.ofNat (n / capacity width) :: encode width n

/-- The number that octets denote. -/
def decode (octets : Bytes) : Nat :=
  octets.foldl (fun n octet => n * 256 + octet.toNat) 0

theorem capacity_pos (width : Nat) : 0 < capacity width := by
  induction width with
  | zero => exact Nat.zero_lt_one
  | succ width ih => exact Nat.mul_pos (by decide) ih

@[simp] theorem length_encode (width n : Nat) : (encode width n).length = width := by
  induction width with
  | zero => rfl
  | succ width ih => simp [encode, ih]

private theorem foldl_octets (octets : Bytes) (n : Nat) :
    octets.foldl (fun n octet => n * 256 + octet.toNat) n =
      n * capacity octets.length + decode octets := by
  induction octets generalizing n with
  | nil => simp [decode, capacity]
  | cons octet octets ih =>
    simp only [List.foldl_cons, List.length_cons, decode, Nat.zero_mul, Nat.zero_add]
    rw [ih, ih octet.toNat]
    simp only [capacity, Nat.add_mul, Nat.mul_assoc, Nat.add_assoc]

theorem decode_cons (octet : UInt8) (octets : Bytes) :
    decode (octet :: octets) = octet.toNat * capacity octets.length + decode octets := by
  simpa [decode] using foldl_octets octets octet.toNat

/-- A number is bounded by its width. -/
theorem decode_lt (octets : Bytes) : decode octets < capacity octets.length := by
  induction octets with
  | nil => exact Nat.zero_lt_one
  | cons octet octets ih =>
    rw [decode_cons, List.length_cons, capacity]
    have h : octet.toNat + 1 ≤ 256 := octet.toNat_lt
    calc octet.toNat * capacity octets.length + decode octets
        < octet.toNat * capacity octets.length + capacity octets.length :=
          Nat.add_lt_add_left ih _
      _ = (octet.toNat + 1) * capacity octets.length := by rw [Nat.succ_mul]
      _ ≤ 256 * capacity octets.length := Nat.mul_le_mul_right _ h

/-- A written number reads back, reduced to what its width can hold. -/
theorem decode_encode (width n : Nat) : decode (encode width n) = n % capacity width := by
  induction width with
  | zero => simp [encode, decode, capacity, Nat.mod_one]
  | succ width ih =>
    have octet : (UInt8.ofNat (n / capacity width)).toNat = n / capacity width % 256 :=
      UInt8.toNat_ofNat'
    rw [encode, decode_cons, ih, length_encode, octet, capacity, Nat.mul_comm 256, Nat.mod_mul,
      Nat.mul_comm, Nat.add_comm]

/-- Octets are what their number is written as. -/
theorem encode_decode (octets : Bytes) : encode octets.length (decode octets) = octets := by
  suffices h : ∀ n, encode octets.length (n * capacity octets.length + decode octets) = octets by
    simpa using h 0
  induction octets with
  | nil => intro n; rfl
  | cons octet octets ih =>
    intro n
    have lt := decode_lt octets
    have regroup : n * capacity (octets.length + 1) + decode (octet :: octets) =
        (n * 256 + octet.toNat) * capacity octets.length + decode octets := by
      rw [decode_cons, capacity, Nat.add_mul, Nat.mul_assoc, Nat.add_assoc]
    have quotient : ((n * 256 + octet.toNat) * capacity octets.length + decode octets) /
        capacity octets.length = n * 256 + octet.toNat := by
      rw [Nat.mul_comm, Nat.mul_add_div (capacity_pos _), Nat.div_eq_of_lt lt, Nat.add_zero]
    rw [List.length_cons, encode, regroup, quotient, ih]
    congr 1
    apply UInt8.toNat_inj.mp
    rw [UInt8.toNat_ofNat', Nat.add_comm, Nat.add_mul_mod_self_right]
    exact Nat.mod_eq_of_lt octet.toNat_lt

end BigEndian

end WireProtocol
