import WireProtocol.Codec.Value
import WireProtocol.Proofs.Payload.Reading
import WireProtocol.Proofs.Payload.Writing
import WireProtocol.Proofs.Table.Canonical

/-!
# Values in payloads

* `WireForm`: the octets of a value that stands alone, which is every value but a bit.
* `Reads.value`: a value is read exactly where octets of its form come first.
* `WireValue.wire`, `Writes.value`: what is written for a value.
* `WireForm.of_wire`, `WireForm.wire`: what is written for a value is of its form, and it is the
  normal form of all octets that are.
-/

namespace WireProtocol

open BigEndian FieldTable

/-- The octets of a value that stands alone: a number, a string behind its length, or the body of a
table behind its length. -/
def WireForm : WireValue → Bytes → Prop
  | .bit _, _ => False
  | .octet value, octets => octets = encode 1 value.toNat
  | .short value, octets => octets = encode 2 value.toNat
  | .long value, octets => octets = encode 4 value.toNat
  | .longlong value, octets => octets = encode 8 value.toNat
  | .timestamp value, octets => octets = encode 8 value.toNat
  | .shortstr bytes, octets =>
    bytes.length < capacity 1 ∧ octets = encode 1 bytes.length ++ bytes
  | .longstr bytes, octets =>
    bytes.length < capacity 4 ∧ octets = encode 4 bytes.length ++ bytes
  | .table entries, octets => ∃ body, EntriesForm entries body ∧
    body.length < capacity 4 ∧ octets = encode 4 body.length ++ body

theorem WireForm.isBit_eq_false {value : WireValue} {octets : Bytes} (h : WireForm value octets) :
    value.wireType.isBit = false := by
  cases value with
  | bit => exact h.elim
  | _ => rfl

/-- A value that stands alone is read exactly where octets of its form come first. -/
theorem Reads.value {ty : WireType} (single : ty.isBit = false) :
    Reads (WireValue.read ty) fun value octets => value.wireType = ty ∧ WireForm value octets := by
  cases ty with
  | bit => cases single
  | octet =>
    refine (octet.map WireValue.octet).congr fun value _ => ?_
    cases value <;> simp [WireValue.wireType, WireForm]
  | short =>
    refine (short.map WireValue.short).congr fun value _ => ?_
    cases value <;> simp [WireValue.wireType, WireForm]
  | long =>
    refine (long.map WireValue.long).congr fun value _ => ?_
    cases value <;> simp [WireValue.wireType, WireForm]
  | longlong =>
    refine (longlong.map WireValue.longlong).congr fun value _ => ?_
    cases value <;> simp [WireValue.wireType, WireForm]
  | timestamp =>
    refine (longlong.map WireValue.timestamp).congr fun value _ => ?_
    cases value <;> simp [WireValue.wireType, WireForm]
  | shortstr =>
    refine ((counted 1).map WireValue.shortstr).congr fun value _ => ?_
    cases value <;> simp [WireValue.wireType, WireForm]
  | longstr =>
    refine ((counted 4).map WireValue.longstr).congr fun value _ => ?_
    cases value <;> simp [WireValue.wireType, WireForm]
  | table =>
    refine (table.map WireValue.table).congr fun value _ => ?_
    cases value <;> simp [WireValue.wireType, WireForm]

namespace WireValue

/-- Octets behind their number, which fits its width, or else an error that tells it. -/
def countedWire (width : Nat) (overflow : Nat → FrameError) (octets : Bytes) :
    Except FrameError Bytes :=
  if octets.length < capacity width then .ok (encode width octets.length ++ octets)
  else .error (overflow octets.length)

/-- What is written for a value. -/
def wire : WireValue → Except FrameError Bytes
  | bit value => .ok (encode 1 value.toUInt8.toNat)
  | octet value => .ok (encode 1 value.toNat)
  | short value => .ok (encode 2 value.toNat)
  | long value => .ok (encode 4 value.toNat)
  | longlong value => .ok (encode 8 value.toNat)
  | timestamp value => .ok (encode 8 value.toNat)
  | shortstr bytes => countedWire 1 .shortStrOverflow bytes
  | longstr bytes => countedWire 4 .longStrOverflow bytes
  | table entries =>
    match entries.encode with
    | .ok body => countedWire 4 .longStrOverflow body
    | .error source => .error (.table "table" source)

/-- The roles of the octets of a value. -/
def roles : WireValue → List OctetRole
  | bit _ => [.flags 1]
  | octet _ => List.replicate 1 .whole
  | short _ => List.replicate 2 .whole
  | long _ => List.replicate 4 .whole
  | longlong _ | timestamp _ => List.replicate 8 .whole
  | shortstr bytes => List.replicate (1 + bytes.length) .whole
  | longstr bytes => List.replicate (4 + bytes.length) .whole
  | table entries => List.replicate 4 .whole ++ entriesRoles entries

theorem eq_bit_of_isBit {value : WireValue} (h : value.wireType.isBit = true) :
    ∃ set, value = .bit set := by
  cases value with
  | bit set => exact ⟨set, rfl⟩
  | _ => cases h

/-- No octet of a value that stands alone is shared with another one. -/
theorem flags_not_mem_roles {value : WireValue} (single : value.wireType.isBit = false)
    (count : Nat) : .flags count ∉ value.roles := by
  cases value with
  | bit => cases single
  | table entries => simp [roles, flags_not_mem_entriesRoles]
  | _ => simp [roles]

theorem countedWire_eq_ok {width : Nat} {overflow : Nat → FrameError} {value octets : Bytes} :
    countedWire width overflow value = .ok octets ↔
      value.length < capacity width ∧ octets = encode width value.length ++ value :=
  Except.ite_eq_ok

end WireValue

open WireValue

/-- Writing a value appends what is written for it, or fails for the same reason. -/
theorem Writes.value (value : WireValue) :
    Writes value.write (value.wire.map fun octets => ((), octets)) := by
  have counted {step : Write Unit} {width : Nat} {overflow : Nat → FrameError} {octets : Bytes}
      (h : Writes step (if octets.length < capacity width then
        .ok ((), encode width octets.length ++ octets) else .error (overflow octets.length))) :
      Writes step ((countedWire width overflow octets).map fun octets => ((), octets)) := by
    unfold countedWire
    split at h
    · rwa [if_pos ‹_›]
    · rwa [if_neg ‹_›]
  cases value with
  | bit value => exact number 1 value.toUInt8.toNat
  | octet value => exact number 1 value.toNat
  | short value => exact number 2 value.toNat
  | long value => exact number 4 value.toNat
  | longlong value => exact number 8 value.toNat
  | timestamp value => exact number 8 value.toNat
  | shortstr bytes => exact counted (shortstr bytes)
  | longstr bytes => exact counted (longstr bytes)
  | table entries =>
    have written := table entries
    rw [WireValue.wire]
    cases encoded : entries.encode with
    | error source =>
      rw [encoded] at written
      exact written
    | ok body =>
      rw [encoded] at written
      exact counted written

namespace WireForm

variable {value : WireValue} {octets : Bytes}

/-- What is written for a value is of its form. -/
theorem of_wire (h : value.wire = .ok octets) (single : value.wireType.isBit = false) :
    WireForm value octets := by
  cases value with
  | bit => cases single
  | octet | short | long | longlong | timestamp => cases h; rfl
  | shortstr | longstr => exact countedWire_eq_ok.mp h
  | table entries =>
    rw [WireValue.wire] at h
    split at h
    · rename_i body encoded
      exact ⟨body, EntriesForm.of_encode entries body encoded, countedWire_eq_ok.mp h⟩
    · cases h

/-- Each octet of a value has a role. -/
theorem length_roles (h : WireForm value octets) : value.roles.length = octets.length := by
  cases value with
  | bit => exact h.elim
  | octet | short | long | longlong | timestamp =>
    rw [show octets = _ from h, length_encode]
    rfl
  | shortstr | longstr =>
    obtain ⟨-, rfl⟩ := h
    simp [roles]
  | table entries =>
    obtain ⟨body, contents, -, rfl⟩ := h
    rw [roles, List.length_append, List.length_append, List.length_replicate, length_encode,
      EntriesForm.length_roles contents]

/-- What is written for a value is the normal form of all octets of its form. -/
theorem wire (h : WireForm value octets) : value.wire = .ok (normalize value.roles octets) := by
  cases value with
  | bit => exact h.elim
  | octet | short | long | longlong | timestamp =>
    rw [show octets = _ from h, roles, normalize_replicate (length_encode _ _).symm]
    rfl
  | shortstr bytes | longstr bytes =>
    obtain ⟨bound, rfl⟩ := h
    rw [roles, normalize_replicate (by simp)]
    exact countedWire_eq_ok.mpr ⟨bound, rfl⟩
  | table entries =>
    obtain ⟨body, contents, bound, rfl⟩ := h
    have same := EntriesForm.length_roles contents
    rw [roles, normalize_append (by simp), normalize_replicate (by simp), WireValue.wire,
      FieldTable.encode, EntriesForm.encode contents]
    refine countedWire_eq_ok.mpr ⟨?_, ?_⟩
    · rwa [length_normalize same]
    · rw [length_normalize same]

end WireForm

end WireProtocol
