import Mathlib.Data.Nat.Bitwise
import WireProtocol.Proofs.Codec.Method
import WireProtocol.Proofs.Table.Size

/-!
# Records value by value

What a record is written as, said without chunks: the values in order, and each longest run of bits
in as many octets as it needs.

* `bitRun`, `testBit_bitRun`: the octets of a run of bits, with each bit at the place that its place
  in the run decides.
* `ValueRun.ofRecord`: the runs of bits and the other values of a record.
* `ValueRun.ofRecord_eq_iff`: these are the only runs of the record that are as long as can be.
* `MethodLayout.encode_eq_runs`: a record is written as its runs are, and refused as they are; its runs
  are the longest ones.
-/

namespace WireProtocol

/-! ## Runs of bits -/

/-- The octet at place `i` of a run of bits. Its bit at place `k` is the bit `8 * i + k` of the run,
or clear past the end of the run. -/
def bitRunOctet (bits : List Bool) (i : Nat) : UInt8 :=
  UInt8.ofNat (Nat.ofBits fun k : Fin 8 => bits.getD (8 * i + k) false)

/-- The octets of a run of bits. -/
def bitRun (bits : List Bool) : Bytes :=
  (List.range ((bits.length + 7) / 8)).map (bitRunOctet bits)

@[simp] theorem length_bitRun (bits : List Bool) :
    (bitRun bits).length = (bits.length + 7) / 8 := by
  rw [bitRun, List.length_map, List.length_range]

theorem testBit_bitRunOctet (bits : List Bool) {i k : Nat} (low : k < 8) :
    (bitRunOctet bits i).toNat.testBit k = bits.getD (8 * i + k) false := by
  rw [bitRunOctet, UInt8.toNat_ofNat_of_lt' (Nat.ofBits_lt_two_pow _),
    Nat.testBit_ofBits_lt _ _ low]

/-- The bit at place `j` is bit `j % 8` of octet `j / 8`, and the bits past the end are clear. -/
theorem testBit_bitRun (bits : List Bool) (j : Nat) :
    ((bitRun bits).getD (j / 8) 0).toNat.testBit (j % 8) = bits.getD j false := by
  by_cases inside : j / 8 < (bits.length + 7) / 8
  · have octet : (bitRun bits).getD (j / 8) 0 = bitRunOctet bits (j / 8) := by
      simp [bitRun, inside]
    rw [octet, testBit_bitRunOctet bits (Nat.mod_lt j (by decide)), Nat.div_add_mod]
  · have outside : bits.length ≤ j := by omega
    have octet : (bitRun bits).getD (j / 8) 0 = 0 := by
      simp [List.getD_eq_getElem?_getD, Nat.not_lt.mp inside]
    rw [octet, List.getD_eq_default _ _ outside]
    exact Nat.zero_testBit (j % 8)

/-- The bits of an octet determine it. -/
private theorem octet_eq_of_testBit {a b : UInt8}
    (same : ∀ k, k < 8 → a.toNat.testBit k = b.toNat.testBit k) : a = b := by
  apply UInt8.toNat_inj.mp
  apply Nat.eq_of_testBit_eq
  intro k
  by_cases low : k < 8
  · exact same k low
  · have clear (octet : UInt8) : octet.toNat.testBit k = false :=
      Nat.testBit_eq_false_of_lt (Nat.lt_of_lt_of_le octet.toNat_lt
        (Nat.pow_le_pow_right (by decide) (Nat.not_lt.mp low)))
    rw [clear, clear]

/-- Octets with each bit in its place are those of the run. -/
theorem eq_bitRun {bits : List Bool} {octets : Bytes}
    (length : octets.length = (bits.length + 7) / 8)
    (places : ∀ j, (octets.getD (j / 8) 0).toNat.testBit (j % 8) = bits.getD j false) :
    octets = bitRun bits := by
  apply List.ext_getElem (by rw [length, length_bitRun])
  intro i inside inside'
  apply octet_eq_of_testBit
  intro k low
  have octet : (8 * i + k) / 8 = i := by omega
  have bit : (8 * i + k) % 8 = k := by omega
  have here := places (8 * i + k)
  rw [← testBit_bitRun bits (8 * i + k), octet, bit, List.getD_eq_getElem _ _ inside,
    List.getD_eq_getElem _ _ inside'] at here
  exact here

/-- A run that fits one octet. -/
theorem bitRun_of_le {bits : List Bool} (some : bits ≠ []) (room : bits.length ≤ maxBitGroup) :
    bitRun bits = [packBits bits] := by
  have pos : 0 < bits.length := List.length_pos_iff.mpr some
  have bound : bits.length ≤ 8 := room
  refine (eq_bitRun ?_ ?_).symm
  · rw [List.length_singleton]
    omega
  · intro j
    by_cases low : j < 8
    · rw [Nat.div_eq_of_lt low, Nat.mod_eq_of_lt low, List.getD_cons_zero, testBit_packBits room]
    · have octet : [packBits bits].getD (j / 8) 0 = 0 :=
        List.getD_eq_default _ _ (by rw [List.length_singleton]; omega)
      rw [octet, List.getD_eq_default _ _ (by omega)]
      exact Nat.zero_testBit (j % 8)

/-- A run may be cut behind a full octet. -/
theorem bitRun_append {first more : List Bool} (full : first.length % 8 = 0) :
    bitRun (first ++ more) = bitRun first ++ bitRun more := by
  refine (eq_bitRun ?_ ?_).symm
  · rw [List.length_append, length_bitRun, length_bitRun, List.length_append]
    omega
  · intro j
    by_cases low : j < first.length
    · rw [List.getD_append _ _ _ _ (by rw [length_bitRun]; omega), List.getD_append _ _ _ _ low,
        testBit_bitRun]
    · obtain ⟨k, rfl⟩ : ∃ k, j = first.length + k := ⟨j - first.length, by omega⟩
      have octet : (first.length + k) / 8 - (bitRun first).length = k / 8 := by
        rw [length_bitRun]
        omega
      have bit : (first.length + k) % 8 = k % 8 := by omega
      rw [List.getD_append_right _ _ _ _ (by rw [length_bitRun]; omega), octet, bit, testBit_bitRun,
        List.getD_append_right _ _ _ _ (by omega), Nat.add_sub_cancel_left]

/-- A run without bits takes no octets. -/
theorem map_bitRun_nil (outcome : Except FrameError Bytes) :
    outcome.map (bitRun [] ++ ·) = outcome :=
  congrFun Except.map_id outcome

/-! ## Runs of a record -/

/-- A longest run of bits among the values of a record, or a value that is no bit. -/
inductive ValueRun where
  | bits (run : List Bool)
  | single (value : WireValue)

namespace ValueRun

/-- A bit in front of runs. It belongs to a run of bits that comes first, or else is a run by
itself. -/
def consBit (bit : Bool) : List ValueRun → List ValueRun
  | bits run :: runs => bits (bit :: run) :: runs
  | runs => bits [bit] :: runs

/-- The runs of a record, in order. -/
def ofRecord : List WireValue → List ValueRun
  | [] => []
  | .bit bit :: record => consBit bit (ofRecord record)
  | value :: record => single value :: ofRecord record

/-- What is written for a run. -/
def octets : ValueRun → Except FrameError Bytes
  | bits run => .ok (bitRun run)
  | single value => value.wire

/-- What is written for runs, one after the other. -/
def allOctets : List ValueRun → Except FrameError Bytes
  | [] => .ok []
  | run :: runs => do
    let front ← run.octets
    let back ← allOctets runs
    return front ++ back

/-- The first run, if there is one, is not of bits. -/
def NoBitFirst : List ValueRun → Prop
  | bits _ :: _ => False
  | _ => True

theorem noBitFirst_nil : NoBitFirst [] := trivial

theorem noBitFirst_single (value : WireValue) (runs : List ValueRun) :
    NoBitFirst (single value :: runs) := trivial

/-- Bits in front of a run of bits belong to it. -/
theorem foldr_consBit_bits (group run : List Bool) (runs : List ValueRun) :
    group.foldr consBit (bits run :: runs) = bits (group ++ run) :: runs := by
  induction group with
  | nil => rfl
  | cons bit group ih => rw [List.foldr_cons, ih, List.cons_append, consBit]

/-- Bits in front of anything else are a run by themselves. -/
theorem foldr_consBit_of_ne {group : List Bool} {runs : List ValueRun} (some : group ≠ [])
    (apart : NoBitFirst runs) : group.foldr consBit runs = bits group :: runs := by
  have last (bit : Bool) : consBit bit runs = bits [bit] :: runs := by
    match runs with
    | [] | single _ :: _ => rfl
  rw [← List.dropLast_concat_getLast some, List.foldr_append, List.foldr_cons, List.foldr_nil,
    last, foldr_consBit_bits]

/-- A value that is no bit is a run by itself. -/
theorem ofRecord_cons_of_single {value : WireValue} (h : value.wireType.isBit = false)
    (record : List WireValue) : ofRecord (value :: record) = single value :: ofRecord record := by
  cases value with
  | bit => cases h
  | _ => rfl

/-! ### Runs that are as long as can be -/

/-- The values of a run, in order. -/
def values : ValueRun → List WireValue
  | bits run => run.map .bit
  | single value => [value]

/-- No run of bits could be longer, and none is empty. -/
def Longest : List ValueRun → Prop
  | [] => True
  | bits run :: runs => run ≠ [] ∧ NoBitFirst runs ∧ Longest runs
  | single value :: runs => value.wireType.isBit = false ∧ Longest runs

theorem flatMap_values_consBit (bit : Bool) (runs : List ValueRun) :
    (consBit bit runs).flatMap values = .bit bit :: runs.flatMap values := by
  match runs with
  | [] | bits _ :: _ | single _ :: _ => rfl

theorem longest_consBit {runs : List ValueRun} (bit : Bool) (h : Longest runs) :
    Longest (consBit bit runs) := by
  match runs with
  | bits run :: runs => exact ⟨List.cons_ne_nil bit run, h.2⟩
  | [] => exact ⟨List.cons_ne_nil bit [], noBitFirst_nil, h⟩
  | single value :: runs => exact ⟨List.cons_ne_nil bit [], noBitFirst_single value runs, h⟩

/-- The runs of a record hold its values, in their order. -/
theorem flatMap_values_ofRecord (record : List WireValue) :
    (ofRecord record).flatMap values = record := by
  induction record with
  | nil => rfl
  | cons value record ih =>
    by_cases bit : value.wireType.isBit = true
    · obtain ⟨set, rfl⟩ := WireValue.eq_bit_of_isBit bit
      rw [ofRecord, flatMap_values_consBit, ih]
    · rw [ofRecord_cons_of_single (Bool.eq_false_iff.mpr bit), List.flatMap_cons, ih]
      rfl

theorem longest_ofRecord (record : List WireValue) : Longest (ofRecord record) := by
  induction record with
  | nil => trivial
  | cons value record ih =>
    by_cases bit : value.wireType.isBit = true
    · obtain ⟨set, rfl⟩ := WireValue.eq_bit_of_isBit bit
      exact longest_consBit set ih
    · have apart := Bool.eq_false_iff.mpr bit
      rw [ofRecord_cons_of_single apart]
      exact ⟨apart, ih⟩

theorem ofRecord_append (group : List Bool) (record : List WireValue) :
    ofRecord (group.map .bit ++ record) = group.foldr consBit (ofRecord record) := by
  induction group with
  | nil => rfl
  | cons bit group ih => rw [List.map_cons, List.cons_append, ofRecord, ih, List.foldr_cons]

/-- Runs that are as long as can be are those of their values. -/
theorem ofRecord_flatMap_values {runs : List ValueRun} (h : Longest runs) :
    ofRecord (runs.flatMap values) = runs := by
  induction runs with
  | nil => rfl
  | cons run runs ih =>
    cases run with
    | bits run =>
      obtain ⟨some, apart, rest⟩ := h
      rw [List.flatMap_cons, values, ofRecord_append, ih rest, foldr_consBit_of_ne some apart]
    | single value =>
      obtain ⟨apart, rest⟩ := h
      rw [List.flatMap_cons, values, List.singleton_append, ofRecord_cons_of_single apart, ih rest]

/-- The runs of a record are its only ones that are as long as can be. -/
theorem ofRecord_eq_iff {record : List WireValue} {runs : List ValueRun} :
    ofRecord record = runs ↔ Longest runs ∧ runs.flatMap values = record := by
  constructor
  · rintro rfl
    exact ⟨longest_ofRecord record, flatMap_values_ofRecord record⟩
  · rintro ⟨longest, rfl⟩
    exact ofRecord_flatMap_values longest

/-! ### What is written for runs -/

theorem allOctets_bits (run : List Bool) (runs : List ValueRun) :
    allOctets (bits run :: runs) = (allOctets runs).map (bitRun run ++ ·) := by
  rw [allOctets]
  cases allOctets runs <;> rfl

/-- Bits in front of runs take octets of their own when they fill these or no other bit follows. -/
theorem allOctets_foldr_consBit {group : List Bool} {runs : List ValueRun}
    (closed : group.length % 8 = 0 ∨ NoBitFirst runs) :
    allOctets (group.foldr consBit runs) = (allOctets runs).map (bitRun group ++ ·) := by
  by_cases none : group = []
  · rw [none, List.foldr_nil, map_bitRun_nil]
  · match runs with
    | bits run :: runs =>
      have full := closed.resolve_right not_false
      rw [foldr_consBit_bits, allOctets_bits, allOctets_bits, bitRun_append full]
      cases allOctets runs with
      | error e => rfl
      | ok octets => exact congrArg Except.ok (List.append_assoc _ _ _)
    | [] => rw [foldr_consBit_of_ne none noBitFirst_nil, allOctets_bits]
    | single value :: runs =>
      rw [foldr_consBit_of_ne none (noBitFirst_single value runs), allOctets_bits]

end ValueRun

/-! ## Sizes -/

/-- How many octets a value takes that stands alone. -/
def WireValue.size : WireValue → Nat
  | bit _ | octet _ => 1
  | short _ => 2
  | long _ => 4
  | longlong _ | timestamp _ => 8
  | shortstr bytes => 1 + bytes.length
  | longstr bytes => 4 + bytes.length
  | table entries => 4 + FieldTable.size entries

/-- How many octets a run takes: a run of bits, one for each eight of them that it begins. -/
def ValueRun.size : ValueRun → Nat
  | bits run => (run.length + 7) / 8
  | single value => value.size

theorem WireValue.length_of_wire {value : WireValue} {octets : Bytes}
    (h : value.wire = .ok octets) : octets.length = value.size := by
  cases value with
  | bit | octet | short | long | longlong | timestamp =>
    cases h
    exact BigEndian.length_encode _ _
  | shortstr | longstr =>
    obtain ⟨-, rfl⟩ := countedWire_eq_ok.mp h
    rw [List.length_append, BigEndian.length_encode]
    rfl
  | table entries =>
    rw [wire] at h
    split at h
    · rename_i body encoded
      obtain ⟨-, rfl⟩ := countedWire_eq_ok.mp h
      rw [List.length_append, BigEndian.length_encode,
        (EntriesForm.of_encode entries body encoded).length_eq_size]
      rfl
    · cases h

namespace ValueRun

theorem length_of_octets {run : ValueRun} {octets : Bytes} (h : run.octets = .ok octets) :
    octets.length = run.size := by
  cases run with
  | bits run =>
    cases h
    exact length_bitRun run
  | single value => exact WireValue.length_of_wire h

/-- What is written for runs is as long as they are together. -/
theorem length_of_allOctets {runs : List ValueRun} {octets : Bytes}
    (h : allOctets runs = .ok octets) : octets.length = (runs.map size).sum := by
  induction runs generalizing octets with
  | nil =>
    cases h
    rfl
  | cons run runs ih =>
    obtain ⟨front, first, h⟩ := Except.bind_eq_ok.mp h
    obtain ⟨back, rest, same⟩ := Except.bind_eq_ok.mp h
    cases same
    rw [List.length_append, List.map_cons, List.sum_cons, length_of_octets first, ih rest]

end ValueRun

/-! ## Chunks and runs -/

namespace Chunk

theorem wire_single (value : WireValue) (ty : WireType) : (single value ty).wire = value.wire := by
  unfold single
  split <;> rfl

/-- A closed group takes the octets of a run. -/
theorem wires_close {group : List Bool} (room : group.length ≤ maxBitGroup)
    (chunks : List (Chunk WireValue)) :
    wires (close (group.map .bit) chunks) = (wires chunks).map (bitRun group ++ ·) := by
  cases group with
  | nil => exact (map_bitRun_nil _).symm
  | cons bit group =>
    have octet := bitRun_of_le (List.cons_ne_nil bit group) room
    rw [List.map_cons, close, List.isEmpty_cons, if_neg Bool.false_ne_true, wires, wire,
      ← List.map_cons, map_isSet_map_bit, octet]
    cases wires chunks <;> rfl

/-- Grouping with an open group writes what the runs of the group and of the values behind it are
written as. -/
theorem wires_coalesceFrom {group : List Bool} (room : group.length ≤ maxBitGroup)
    (record : List WireValue) :
    wires (coalesceFrom (group.map .bit) (record.map fun value => (value, value.wireType))) =
      ValueRun.allOctets (group.foldr ValueRun.consBit (ValueRun.ofRecord record)) := by
  induction record generalizing group with
  | nil =>
    rw [List.map_nil, coalesceFrom, wires_close room, ValueRun.ofRecord,
      ValueRun.allOctets_foldr_consBit (.inr ValueRun.noBitFirst_nil)]
    rfl
  | cons value record ih =>
    rw [List.map_cons, coalesceFrom]
    by_cases bit : value.wireType.isBit = true
    · obtain ⟨set, rfl⟩ := WireValue.eq_bit_of_isBit bit
      rw [if_pos bit, List.length_map]
      by_cases space : group.length < maxBitGroup
      · -- The open group takes the bit in.
        have longer := @ih (group ++ [set]) (by rw [List.length_append]; exact space)
        rw [List.map_append, List.foldr_append] at longer
        rw [if_pos space]
        exact longer
      · -- The group is full: its octet is closed, and the bit opens another one of the same run.
        have full : group.length = maxBitGroup := Nat.le_antisymm room (Nat.not_lt.mp space)
        have rest := @ih [set] (show 1 ≤ maxBitGroup by decide)
        rw [if_neg space, wires_close room, ValueRun.ofRecord,
          ValueRun.allOctets_foldr_consBit (.inl (by rw [full]; rfl))]
        exact congrArg _ rest
    · have single := Bool.eq_false_iff.mpr bit
      have rest : wires (coalesceFrom [] (record.map fun value => (value, value.wireType))) =
          ValueRun.allOctets (ValueRun.ofRecord record) := @ih [] (Nat.zero_le _)
      rw [if_neg bit, wires_close room, ValueRun.ofRecord_cons_of_single single,
        ValueRun.allOctets_foldr_consBit (.inr (ValueRun.noBitFirst_single _ _)), wires,
        wire_single, ValueRun.allOctets, rest]
      rfl

end Chunk

/-! ## Records -/

/-- A record is written as its runs are, and refused for the same reason. It is as long as they are
together. Its runs are the only ones that hold its values and are as long as can be. -/
theorem MethodLayout.encode_eq_runs {m : MethodLayout} {record : List WireValue}
    (typed : record.map WireValue.wireType = m.types) :
    m.encode record = ValueRun.allOctets (ValueRun.ofRecord record) ∧
      (∀ octets, m.encode record = .ok octets →
        octets.length = ((ValueRun.ofRecord record).map ValueRun.size).sum) ∧
      ∀ runs, ValueRun.ofRecord record = runs ↔
        ValueRun.Longest runs ∧ runs.flatMap ValueRun.values = record := by
  have same : m.encode record = ValueRun.allOctets (ValueRun.ofRecord record) := by
    rw [encode_eq, recordChunks_eq typed]
    exact @Chunk.wires_coalesceFrom [] (Nat.zero_le _) record
  refine ⟨same, fun octets encoded => ?_, fun runs => ValueRun.ofRecord_eq_iff⟩
  exact ValueRun.length_of_allOctets (same ▸ encoded)

namespace FlagsWide

/-- A method with nine bits in a row, a number, and a bit behind it. -/
def method : Method :=
  let arguments :=
    [("b0", "bit"), ("b1", "bit"), ("b2", "bit"), ("b3", "bit"), ("b4", "bit"), ("b5", "bit"),
      ("b6", "bit"), ("b7", "bit"), ("b8", "bit"), ("count", "long"), ("last", "bit")]
  (arguments.foldl (fun method (name, domain) => method.withArgument (.new name domain none))
    (Method.new 20 "wide")).attach 10 "flags"

def layout : MethodLayout where
  name := "flags.wide"
  hasContent := false
  synchronous := false
  arguments := method.arguments.toList.zip (List.replicate 9 .bit ++ [.long, .bit])

def record : List WireValue :=
  [true, false, false, false, false, false, false, true, true].map .bit ++ [.long 7, .bit true]

def payload : Bytes :=
  [0x81, 0x01, 0, 0, 0, 7, 0x01]

/-- The ninth bit has an octet of its own, and so has the bit behind the number. The nine bits are one
run. -/
theorem record_is_written_by_runs :
    (Description.new ⟨8, 0, 0⟩ 5672).methodLayout method = .ok layout ∧
      layout.encode record = .ok payload ∧
      payload.length = ((ValueRun.ofRecord record).map ValueRun.size).sum ∧
      ValueRun.ofRecord record =
        [.bits [true, false, false, false, false, false, false, true, true], .single (.long 7),
          .bits [true]] := by
  have resolved : (Description.new ⟨8, 0, 0⟩ 5672).methodLayout method = .ok layout := rfl
  obtain ⟨same, length, longest⟩ := @MethodLayout.encode_eq_runs layout record rfl
  have runs : ValueRun.allOctets (ValueRun.ofRecord record) = .ok payload := rfl
  have encoded := same.trans runs
  refine ⟨resolved, encoded, length payload encoded, (longest _).mpr ⟨?_, rfl⟩⟩
  exact ⟨List.cons_ne_nil _ _, trivial, rfl, List.cons_ne_nil _ _, trivial, trivial⟩

end FlagsWide

end WireProtocol
