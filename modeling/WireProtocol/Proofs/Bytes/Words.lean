import WireProtocol.Bytes.BigEndian

/-!
# Words

The octets of a number of a fixed width and the number determine each other.

* `BigEndian.decode_eq_iff`: octets of a width denote a number exactly when they are its encoding.
* `BigEndian.uint8_decode_iff` to `BigEndian.uint64_decode_iff`: the same for machine words.
-/

namespace WireProtocol

namespace BigEndian

variable {octets : Bytes}

theorem decode_eq_iff {width n : Nat} (small : n < capacity width) :
    octets.length = width ∧ decode octets = n ↔ octets = encode width n := by
  constructor
  · rintro ⟨rfl, rfl⟩
    exact (encode_decode octets).symm
  · rintro rfl
    rw [decode_encode, Nat.mod_eq_of_lt small]
    exact ⟨length_encode width n, rfl⟩

theorem decode_encode_of_lt {width n : Nat} (small : n < capacity width) :
    decode (encode width n) = n :=
  ((decode_eq_iff small).mpr rfl).2

/-- A type whose values are the numbers of a width. -/
private theorem word_decode_iff {α : Type} (width : Nat) {ofNat : Nat → α} {toNat : α → Nat}
    (bound : ∀ v, toNat v < capacity width) (ofNat_toNat : ∀ v, ofNat (toNat v) = v)
    (toNat_ofNat : ∀ n, n < capacity width → toNat (ofNat n) = n) {v : α} :
    octets.length = width ∧ ofNat (decode octets) = v ↔ octets = encode width (toNat v) := by
  rw [← decode_eq_iff (bound v)]
  constructor
  · rintro ⟨rfl, rfl⟩
    exact ⟨rfl, (toNat_ofNat _ (decode_lt octets)).symm⟩
  · rintro ⟨rfl, number⟩
    rw [number, ofNat_toNat]
    exact ⟨rfl, rfl⟩

theorem uint8_decode_iff {v : UInt8} :
    octets.length = 1 ∧ UInt8.ofNat (decode octets) = v ↔ octets = encode 1 v.toNat :=
  word_decode_iff 1 UInt8.toNat_lt (fun _ => UInt8.ofNat_toNat)
    fun _ small => UInt8.toNat_ofNat_of_lt' small

theorem uint16_decode_iff {v : UInt16} :
    octets.length = 2 ∧ UInt16.ofNat (decode octets) = v ↔ octets = encode 2 v.toNat :=
  word_decode_iff 2 UInt16.toNat_lt (fun _ => UInt16.ofNat_toNat)
    fun _ small => UInt16.toNat_ofNat_of_lt' small

theorem uint32_decode_iff {v : UInt32} :
    octets.length = 4 ∧ UInt32.ofNat (decode octets) = v ↔ octets = encode 4 v.toNat :=
  word_decode_iff 4 UInt32.toNat_lt (fun _ => UInt32.ofNat_toNat)
    fun _ small => UInt32.toNat_ofNat_of_lt' small

theorem uint64_decode_iff {v : UInt64} :
    octets.length = 8 ∧ UInt64.ofNat (decode octets) = v ↔ octets = encode 8 v.toNat :=
  word_decode_iff 8 UInt64.toNat_lt (fun _ => UInt64.ofNat_toNat)
    fun _ small => UInt64.toNat_ofNat_of_lt' small

theorem exists_uint8 (h : octets.length = 1) :
    ∃ v : UInt8, octets = encode 1 v.toNat ∧ UInt8.ofNat (decode octets) = v :=
  ⟨_, uint8_decode_iff.mp ⟨h, rfl⟩, rfl⟩

theorem exists_uint16 (h : octets.length = 2) :
    ∃ v : UInt16, octets = encode 2 v.toNat ∧ UInt16.ofNat (decode octets) = v :=
  ⟨_, uint16_decode_iff.mp ⟨h, rfl⟩, rfl⟩

theorem exists_uint32 (h : octets.length = 4) :
    ∃ v : UInt32, octets = encode 4 v.toNat ∧ UInt32.ofNat (decode octets) = v :=
  ⟨_, uint32_decode_iff.mp ⟨h, rfl⟩, rfl⟩

theorem exists_uint64 (h : octets.length = 8) :
    ∃ v : UInt64, octets = encode 8 v.toNat ∧ UInt64.ofNat (decode octets) = v :=
  ⟨_, uint64_decode_iff.mp ⟨h, rfl⟩, rfl⟩

@[simp] theorem uint8_decode_encode (v : UInt8) : UInt8.ofNat (decode (encode 1 v.toNat)) = v :=
  (uint8_decode_iff.mpr rfl).2

@[simp] theorem uint16_decode_encode (v : UInt16) : UInt16.ofNat (decode (encode 2 v.toNat)) = v :=
  (uint16_decode_iff.mpr rfl).2

@[simp] theorem uint32_decode_encode (v : UInt32) : UInt32.ofNat (decode (encode 4 v.toNat)) = v :=
  (uint32_decode_iff.mpr rfl).2

@[simp] theorem uint64_decode_encode (v : UInt64) : UInt64.ofNat (decode (encode 8 v.toNat)) = v :=
  (uint64_decode_iff.mpr rfl).2

/-- A single octet is its own encoding. -/
theorem encode_octet (octet : UInt8) : encode 1 octet.toNat = [octet] :=
  (uint8_decode_iff.mp ⟨rfl, by simp [decode]⟩).symm

end BigEndian

end WireProtocol
