import WireProtocol.Codec.Properties

/-!
# Presence flags

* `isPresent`: whether a property has its flag among the sixteen.
* `presenceFlags`: the flags that say which properties from a place on are there.
* `Flagged`: flags say of properties from a place on which of them are there.
* `eq_presenceFlags_iff`: flags of which none is reserved are those of the properties they say are
  there.
-/

namespace WireProtocol

/-- Whether the property at a place has its flag. -/
def isPresent (flags : UInt16) (index : Nat) : Bool :=
  flags &&& presenceBit index ≠ 0

/-- The flags of the properties that are there, the first of which is at a place. -/
def presenceFlags : Nat → List Bool → UInt16
  | _, [] => 0
  | index, present :: others =>
    (if present then presenceBit index else 0) ||| presenceFlags (index + 1) others

/-- The flags say which properties from a place on are there. -/
def Flagged (flags : UInt16) : Nat → List Bool → Prop
  | _, [] => True
  | index, present :: others => isPresent flags index = present ∧ Flagged flags (index + 1) others

variable {flags : UInt16} {index count place : Nat} {presence : List Bool}

@[simp] theorem presenceFlags_false (index : Nat) (others : List Bool) :
    presenceFlags index (false :: others) = presenceFlags (index + 1) others :=
  UInt16.zero_or

@[simp] theorem presenceFlags_true (index : Nat) (others : List Bool) :
    presenceFlags index (true :: others) = presenceBit index ||| presenceFlags (index + 1) others :=
  rfl

/-! ## Bits of flags -/

theorem testBit_eq_false_of_size_le (flags : UInt16) (h : 16 ≤ place) :
    flags.toNat.testBit place = false := by
  have bound : flags.toNat < 1 <<< 16 := flags.toNat_lt
  rw [Nat.one_shiftLeft] at bound
  exact Nat.testBit_lt_two_pow (Nat.lt_of_lt_of_le bound (Nat.pow_le_pow_right (by decide) h))

theorem flags_eq_zero_iff : flags = 0 ↔ ∀ place, flags.toNat.testBit place = false := by
  constructor
  · rintro rfl place
    exact Nat.zero_testBit place
  · intro clear
    apply UInt16.toNat_inj.mp
    apply Nat.eq_of_testBit_eq
    intro place
    rw [clear]
    exact (Nat.zero_testBit place).symm

theorem testBit_presenceBit (index place : Nat) :
    (presenceBit index).toNat.testBit place = decide (index + place = 15) := by
  have small : 0x8000 >>> index < UInt16.size :=
    Nat.lt_of_le_of_lt (Nat.shiftRight_le _ _) (by decide)
  have power : 0x8000 = 1 <<< 15 := rfl
  rw [presenceBit, UInt16.toNat_ofNat_of_lt' small, Nat.testBit_shiftRight, power,
    Nat.one_shiftLeft, Nat.testBit_two_pow]
  exact decide_eq_decide.mpr eq_comm

theorem testBit_reservedMask (count place : Nat) :
    (reservedMask count).toNat.testBit place = decide (place < 16 - count) := by
  have small : 1 <<< (16 - count) - 1 < UInt16.size := by
    have power : 1 <<< (16 - count) ≤ 1 <<< 16 := by
      rw [Nat.one_shiftLeft, Nat.one_shiftLeft]
      exact Nat.pow_le_pow_right (by decide) (Nat.sub_le 16 count)
    have size : 1 <<< 16 = UInt16.size := rfl
    have positive : 0 < UInt16.size := by decide
    omega
  rw [reservedMask, UInt16.toNat_ofNat_of_lt' small, Nat.one_shiftLeft,
    Nat.testBit_two_pow_sub_one]

/-- The flag of a place is the bit as far from the other end. -/
theorem isPresent_eq_testBit (h : index ≤ 15) :
    isPresent flags index = flags.toNat.testBit (15 - index) := by
  have bits (place : Nat) : (flags &&& presenceBit index).toNat.testBit place =
      (flags.toNat.testBit place && decide (index + place = 15)) := by
    rw [UInt16.toNat_and, Nat.testBit_and, testBit_presenceBit]
  rw [isPresent, Bool.eq_iff_iff, decide_eq_true_iff]
  constructor
  · intro some
    by_cases set : flags.toNat.testBit (15 - index) = true
    · exact set
    · refine (some (flags_eq_zero_iff.mpr fun place => ?_)).elim
      rw [bits]
      by_cases here : index + place = 15
      · have same : place = 15 - index := by omega
        rw [same, Bool.eq_false_iff.mpr set, Bool.false_and]
      · rw [decide_eq_false here, Bool.and_false]
  · intro set none
    have clear := flags_eq_zero_iff.mp none (15 - index)
    rw [bits, set, decide_eq_true (by omega)] at clear
    cases clear

theorem and_reservedMask_eq_zero_iff :
    flags &&& reservedMask count = 0 ↔ ∀ place < 16 - count, flags.toNat.testBit place = false := by
  rw [flags_eq_zero_iff]
  have bits (place : Nat) : (flags &&& reservedMask count).toNat.testBit place =
      (flags.toNat.testBit place && decide (place < 16 - count)) := by
    rw [UInt16.toNat_and, Nat.testBit_and, testBit_reservedMask]
  constructor
  · intro clear place low
    have none := clear place
    rwa [bits, decide_eq_true low, Bool.and_true] at none
  · intro clear place
    rw [bits]
    by_cases low : place < 16 - count
    · rw [clear place low, Bool.false_and]
    · rw [decide_eq_false low, Bool.and_false]

/-! ## Flags of properties -/

theorem testBit_presenceFlags (index : Nat) (presence : List Bool) (place : Nat) :
    (presenceFlags index presence).toNat.testBit place =
      (decide (index + place ≤ 15) && presence.getD (15 - place - index) false) := by
  induction presence generalizing index with
  | nil =>
    rw [presenceFlags, List.getD_nil, Bool.and_false]
    exact Nat.zero_testBit place
  | cons present others ih =>
    rw [presenceFlags, UInt16.toNat_or, Nat.testBit_or, ih]
    have first : (if present then presenceBit index else 0 : UInt16).toNat.testBit place =
        (present && decide (index + place = 15)) := by
      cases present with
      | false => exact Nat.zero_testBit place
      | true => exact testBit_presenceBit index place
    rw [first]
    -- Flags go down as places go up: the others lie below the flag of the first property.
    rcases Nat.lt_trichotomy (index + place) 15 with before | here | after
    · have next : 15 - place - index = 15 - place - (index + 1) + 1 := by omega
      have inside : index + 1 + place ≤ 15 := by omega
      have within : index + place ≤ 15 := by omega
      have other : index + place ≠ 15 := by omega
      simp [next, inside, within, other]
    · have none : 15 - place - index = 0 := by omega
      have outside : ¬ index + 1 + place ≤ 15 := by omega
      simp [none, outside, here]
    · have outside : ¬ index + 1 + place ≤ 15 := by omega
      have without : ¬ index + place ≤ 15 := by omega
      have other : index + place ≠ 15 := by omega
      simp [outside, without, other]

/-- The flag of a property is at as many places from the other end as the property is from the
first. -/
theorem testBit_presenceFlags_of_le (h : index ≤ 15) :
    (presenceFlags 0 presence).toNat.testBit (15 - index) = presence.getD index false := by
  have within : 0 + (15 - index) ≤ 15 := by omega
  have same : 15 - (15 - index) - 0 = index := by omega
  rw [testBit_presenceFlags, decide_eq_true within, Bool.true_and, same]

theorem testBit_presenceFlags_of_reserved (reserved : place < 16 - presence.length) :
    (presenceFlags 0 presence).toNat.testBit place = false := by
  have past : presence.length ≤ 15 - place - 0 := by omega
  rw [testBit_presenceFlags, List.getD_eq_getElem?_getD, List.getElem?_eq_none past,
    Option.getD_none, Bool.and_false]

theorem flagged_iff :
    Flagged flags index presence ↔
      ∀ place < presence.length, isPresent flags (index + place) = presence.getD place false := by
  induction presence generalizing index with
  | nil => simp [Flagged]
  | cons present others ih =>
    rw [Flagged, ih]
    constructor
    · rintro ⟨first, rest⟩ place inside
      cases place with
      | zero => exact first
      | succ place =>
        rw [List.getD_cons_succ, ← rest place (Nat.lt_of_succ_lt_succ inside)]
        congr 1
        omega
    · intro all
      refine ⟨all 0 (Nat.zero_lt_succ _), fun place inside => ?_⟩
      have here := all (place + 1) (Nat.succ_lt_succ inside)
      rw [List.getD_cons_succ] at here
      rw [← here]
      congr 1
      omega

/-- Flags of which none is reserved are those of the properties that they say are there. -/
theorem eq_presenceFlags_iff (bound : presence.length ≤ 16) :
    flags &&& reservedMask presence.length = 0 ∧ Flagged flags 0 presence ↔
      flags = presenceFlags 0 presence := by
  rw [and_reservedMask_eq_zero_iff, flagged_iff]
  constructor
  · rintro ⟨clear, flagged⟩
    -- Each of the sixteen bits is reserved or the flag of a property.
    apply UInt16.toNat_inj.mp
    apply Nat.eq_of_testBit_eq
    intro place
    by_cases outside : 16 ≤ place
    · rw [testBit_eq_false_of_size_le flags outside, testBit_eq_false_of_size_le _ outside]
    · by_cases reserved : place < 16 - presence.length
      · rw [clear place reserved, testBit_presenceFlags_of_reserved reserved]
      · have index : place = 15 - (15 - place) := by omega
        have within : 15 - place ≤ 15 := Nat.sub_le 15 place
        rw [index, testBit_presenceFlags_of_le within, ← flagged (15 - place) (by omega),
          Nat.zero_add, isPresent_eq_testBit within]
  · rintro rfl
    refine ⟨fun place reserved => testBit_presenceFlags_of_reserved reserved,
      fun place inside => ?_⟩
    have within : place ≤ 15 := by omega
    rw [Nat.zero_add, isPresent_eq_testBit within, testBit_presenceFlags_of_le within]

end WireProtocol
