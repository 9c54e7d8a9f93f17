import WireProtocol.Config.NamePath
import WireProtocol.Proofs.Codec.Flags
import WireProtocol.Proofs.Emit.GuardedCode

/-!
# Code generation never panics

* `Class.flagParts`: the sixteen flags of a class, cut into those of its properties and those that are
  reserved.
* `Class.pairwise_flagParts`, `Class.foldr_flagParts`: no flag is in two parts, and each is in one.
* `generate_never_panics`: each operation that has a domain is inside of it, whatever the description and
  the settings are.
-/

namespace WireProtocol

/-! ## Flags -/

theorem presenceBit_and_eq_zero {index other : Nat} (h : index ≠ other) :
    presenceBit index &&& presenceBit other = 0 := by
  refine flags_eq_zero_iff.mpr fun place => ?_
  rw [UInt16.toNat_and, Nat.testBit_and, testBit_presenceBit, testBit_presenceBit,
    Bool.and_eq_false_iff, decide_eq_false_iff_not, decide_eq_false_iff_not]
  omega

theorem presenceBit_and_reservedMask_eq_zero {index count : Nat} (inside : index < count)
    (few : count ≤ 15) : presenceBit index &&& reservedMask count = 0 := by
  refine and_reservedMask_eq_zero_iff.mpr fun place low => ?_
  rw [testBit_presenceBit, decide_eq_false_iff_not]
  omega

theorem testBit_foldr_or (parts : List UInt16) (place : Nat) :
    (parts.foldr (· ||| ·) 0).toNat.testBit place = parts.any (·.toNat.testBit place) := by
  induction parts with
  | nil => exact Nat.zero_testBit place
  | cons part parts ih =>
    rw [List.foldr_cons, UInt16.toNat_or, Nat.testBit_or, ih, List.any_cons]

namespace Class

variable {c : Class}

/-- The flag of each property of a class, and those that no property has. -/
def flagParts (c : Class) : List UInt16 :=
  c.properties.toList.map (fun field => presenceBit field.index) ++ [reservedMask c.properties.length]

theorem flagParts_eq (c : Class) :
    c.flagParts =
      (List.range c.properties.length).map presenceBit ++ [reservedMask c.properties.length] := by
  rw [flagParts, FieldList.length, ← c.properties.indexed, List.map_map]
  rfl

/-- No flag is that of two properties, and none of them is reserved. -/
theorem pairwise_flagParts (few : c.properties.length ≤ maxProperties) :
    c.flagParts.Pairwise fun part other => part &&& other = 0 := by
  rw [flagParts_eq, List.pairwise_append]
  refine ⟨?_, List.pairwise_singleton _ _, ?_⟩
  · rw [List.pairwise_map]
    exact List.pairwise_lt_range.imp fun before => presenceBit_and_eq_zero before.ne
  · intro part presence mask reserved
    obtain ⟨index, inside, rfl⟩ := List.mem_map.mp presence
    rw [List.mem_singleton.mp reserved]
    exact presenceBit_and_reservedMask_eq_zero (List.mem_range.mp inside) few

/-- Each of the sixteen flags is that of a property or reserved. -/
theorem foldr_flagParts (c : Class) : c.flagParts.foldr (· ||| ·) 0 = 0xFFFF := by
  have all (place : Nat) : (0xFFFF : UInt16).toNat.testBit place = decide (place < 16) :=
    testBit_reservedMask 0 place
  refine UInt16.toNat_inj.mp (Nat.eq_of_testBit_eq fun place => ?_)
  rw [testBit_foldr_or, all, flagParts_eq, List.any_append, List.any_map, List.any_cons, List.any_nil,
    Bool.or_false, testBit_reservedMask, Bool.eq_iff_iff, Bool.or_eq_true, List.any_eq_true,
    decide_eq_true_iff, decide_eq_true_iff]
  simp only [Function.comp_apply, testBit_presenceBit, decide_eq_true_iff, List.mem_range]
  constructor
  · rintro (⟨index, -, here⟩ | low)
    · omega
    · omega
  · -- A place above the reserved ones belongs to the property that is as far from the other end.
    intro inside
    by_cases low : place < 16 - c.properties.length
    · exact .inr low
    · exact .inl ⟨15 - place, by omega, by omega⟩

end Class

/-! ## Generations -/

/-- No generation panics: with the domains of all operations in place it does what it does without them.
The flags of a class that has properties are parts of the sixteen that share none and leave none out. -/
theorem generate_never_panics (grammar : PathGrammar) (d : Description) (config : Config) :
    guardedGenerate grammar d config = some (generate grammar d config) ∧
      ∀ c ∈ d.classes, c.properties.isEmpty = false →
        (PartialOperation.reservedMask c.properties.length).Allowed ∧
          (∀ field ∈ c.properties.toList, (PartialOperation.presenceBit field.index).Allowed) ∧
          (c.flagParts.Pairwise fun part other => part &&& other = 0) ∧
          c.flagParts.foldr (· ||| ·) 0 = 0xFFFF := by
  constructor
  · rw [guardedGenerate, guardedSteps_eq]
    rfl
  · intro c member filled
    have few := d.bounded c member
    exact ⟨c.reservedMask_allowed few filled, fun field inside => c.presenceBit_allowed few inside,
      c.pairwise_flagParts few, c.foldr_flagParts⟩

namespace KeywordNames

/-- A class that takes its names from keywords, with two properties. -/
def content : Class :=
  ((Class.new 60 "self").withProperty (.new "type" "bit" none)).withProperty (.new "crate" "short" none)

def description : Description :=
  { Description.new ⟨0, 9, 1⟩ 5672 with classes := [content], bounded := by decide }

/-- Two flags are those of the properties, and the other fourteen are reserved. -/
theorem flags_are_parted :
    guardedGenerate .names description .standard = some (generate .names description .standard) ∧
      content.flagParts = [0x8000, 0x4000, 0x3FFF] ∧
      (content.flagParts.Pairwise fun part other => part &&& other = 0) ∧
      content.flagParts.foldr (· ||| ·) 0 = 0xFFFF := by
  have here : content ∈ description.classes := List.mem_singleton_self content
  obtain ⟨same, parts⟩ := generate_never_panics .names description .standard
  obtain ⟨-, -, apart, all⟩ := parts content here rfl
  exact ⟨same, rfl, apart, all⟩

end KeywordNames

end WireProtocol
