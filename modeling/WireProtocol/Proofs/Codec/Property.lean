import WireProtocol.Proofs.Codec.Flags
import WireProtocol.Proofs.Codec.Value

/-!
# Properties behind their flags

* `TypedProperties`: records in which each value is of the type of its property.
* `PropertyForm`, `PropertiesForm`: the octets of a property behind the flags, and those of several.
* `Reads.properties`: properties are read where the flags are as their presence and octets of their
  forms come first.
* `propertiesWire`, `Writes.properties`: what is written for properties.
* `PropertiesForm.of_wire`, `PropertiesForm.wire`: what is written for properties is of their forms,
  without the bits that are false, and it is the normal form of all octets that are.
-/

namespace WireProtocol

/-- Each property is absent, or it has a value of its type. -/
inductive TypedProperties : List WireType → List (Option WireValue) → Prop
  | nil : TypedProperties [] []
  | absent {ty types record} (rest : TypedProperties types record) :
    TypedProperties (ty :: types) (none :: record)
  | present {ty value types record} (type : WireValue.wireType value = ty)
      (rest : TypedProperties types record) :
    TypedProperties (ty :: types) (some value :: record)

/-- A bit that is false is as good as absent. -/
def dropFalse : Option WireValue → Option WireValue
  | some (.bit false) => none
  | value => value

/-- The octets of a property behind the flags. A bit has none. -/
inductive PropertyForm : WireType → Option WireValue → Bytes → Prop
  | absent {ty} : PropertyForm ty none []
  | bit : PropertyForm .bit (some (.bit true)) []
  | value {value octets} (form : WireForm value octets) :
    PropertyForm value.wireType (some value) octets

/-- The octets of the properties behind the flags, one property after the other. -/
inductive PropertiesForm : List WireType → List (Option WireValue) → Bytes → Prop
  | nil : PropertiesForm [] [] []
  | cons {ty value front types record back} (first : PropertyForm ty value front)
      (rest : PropertiesForm types record back) :
    PropertiesForm (ty :: types) (value :: record) (front ++ back)

/-- What is written for a property behind the flags. -/
def propertyWire : Option WireValue → Except FrameError Bytes
  | none => .ok []
  | some (.bit _) => .ok []
  | some value => value.wire

/-- What is written for the properties behind the flags. -/
def propertiesWire : List (Option WireValue) → Except FrameError Bytes
  | [] => .ok []
  | value :: record => do
    let front ← propertyWire value
    let back ← propertiesWire record
    return front ++ back

/-- The roles of the octets of a property. -/
def propertyRoles : Option WireValue → List OctetRole
  | none => []
  | some (.bit _) => []
  | some value => value.roles

theorem TypedProperties.length_eq {types : List WireType} {record : List (Option WireValue)}
    (h : TypedProperties types record) : record.length = types.length := by
  induction h with
  | nil => rfl
  | absent rest ih => rw [List.length_cons, List.length_cons, ih]
  | present type rest ih => rw [List.length_cons, List.length_cons, ih]

theorem propertyWire_of_single {value : WireValue} (single : value.wireType.isBit = false) :
    propertyWire (some value) = value.wire := by
  cases value with
  | bit => cases single
  | _ => rfl

theorem propertyRoles_of_single {value : WireValue} (single : value.wireType.isBit = false) :
    propertyRoles (some value) = value.roles := by
  cases value with
  | bit => cases single
  | _ => rfl

/-- No octet of a property is shared with another one. -/
theorem flags_not_mem_propertyRoles (count : Nat) (value : Option WireValue) :
    .flags count ∉ propertyRoles value := by
  cases value with
  | none => exact List.not_mem_nil
  | some value =>
    cases single : value.wireType.isBit with
    | true =>
      obtain ⟨set, rfl⟩ := WireValue.eq_bit_of_isBit single
      exact List.not_mem_nil
    | false =>
      rw [propertyRoles_of_single single]
      exact WireValue.flags_not_mem_roles single count

theorem dropFalse_of_single {value : WireValue} (single : value.wireType.isBit = false) :
    dropFalse (some value) = some value := by
  cases value with
  | bit => cases single
  | _ => rfl

/-! ## Reading -/

namespace PropertyLayout

/-- The property at a place, if it is there. -/
def readProperty (flags : UInt16) (index : Nat) (ty : WireType) : Read (Option WireValue) :=
  if flags &&& presenceBit index = 0 then return none
  else if ty.isBit then return some (.bit true)
  else return some (← WireValue.read ty)

theorem readPresent_cons (flags : UInt16) (index : Nat) (ty : WireType) (types : List WireType) :
    readPresent flags index (ty :: types) = do
      let value ← readProperty flags index ty
      let others ← readPresent flags (index + 1) types
      return value :: others := by
  rw [readPresent, readProperty]
  split
  · rfl
  · split
    · rfl
    · rw [map_eq_pure_bind]

end PropertyLayout

namespace Reads

open PropertyLayout

/-- A property is read exactly where its flag is as its presence and octets of its form come
first. -/
theorem property (flags : UInt16) (index : Nat) (ty : WireType) :
    Reads (readProperty flags index ty) fun value octets =>
      isPresent flags index = value.isSome ∧ PropertyForm ty value octets := by
  unfold readProperty
  by_cases absent : flags &&& presenceBit index = 0
  · have unset : isPresent flags index = false := decide_eq_false (not_not_intro absent)
    rw [if_pos absent, unset]
    refine (pure none).congr fun value octets => ?_
    constructor
    · rintro ⟨rfl, rfl⟩
      exact ⟨rfl, .absent⟩
    · rintro ⟨none, form⟩
      cases form with
      | absent => exact ⟨rfl, rfl⟩
      | bit | value => cases none
  · have set : isPresent flags index = true := decide_eq_true absent
    rw [if_neg absent, set]
    by_cases bit : ty.isBit = true
    · rw [if_pos bit]
      refine (pure (some (WireValue.bit true))).congr fun value octets => ?_
      constructor
      · rintro ⟨rfl, rfl⟩
        cases ty <;> cases bit
        exact ⟨rfl, .bit⟩
      · rintro ⟨some, form⟩
        cases form with
        | absent => cases some
        | bit => exact ⟨rfl, rfl⟩
        | value form => cases form.isBit_eq_false.symm.trans bit
    · rw [if_neg bit]
      refine ((value (Bool.eq_false_iff.mpr bit)).map some).congr fun value octets => ?_
      constructor
      · rintro ⟨value, ⟨rfl, form⟩, rfl⟩
        exact ⟨rfl, .value form⟩
      · rintro ⟨some, form⟩
        cases form with
        | absent => cases some
        | bit => exact (bit rfl).elim
        | value form => exact ⟨_, ⟨rfl, form⟩, rfl⟩

/-- Properties are read exactly where the flags are as their presence and octets of their forms come
first. -/
theorem properties (flags : UInt16) (index : Nat) (types : List WireType) :
    Reads (readPresent flags index types) fun record octets =>
      Flagged flags index (record.map Option.isSome) ∧ PropertiesForm types record octets := by
  induction types generalizing index with
  | nil =>
    refine (pure []).congr fun record octets => ?_
    constructor
    · rintro ⟨rfl, rfl⟩
      exact ⟨trivial, .nil⟩
    · rintro ⟨-, form⟩
      cases form
      exact ⟨rfl, rfl⟩
  | cons ty types ih =>
    rw [readPresent_cons]
    refine ((property flags index ty).bind fun value => (ih (index + 1)).map (value :: ·)).congr
      fun record octets => ?_
    constructor
    · rintro ⟨value, front, back, ⟨flag, first⟩, ⟨record, ⟨flags, rest⟩, rfl⟩, rfl⟩
      exact ⟨⟨flag, flags⟩, .cons first rest⟩
    · rintro ⟨flagged, form⟩
      cases form with
      | cons first rest =>
        exact ⟨_, _, _, ⟨flagged.1, first⟩, ⟨_, ⟨flagged.2, rest⟩, rfl⟩, rfl⟩

end Reads

/-! ## Writing -/

theorem propertiesWire_cons_nil {value : Option WireValue} {record : List (Option WireValue)}
    (h : propertyWire value = .ok []) :
    propertiesWire (value :: record) = propertiesWire record := by
  rw [propertiesWire, h]
  cases propertiesWire record <;> rfl

/-- Writing properties appends what is written for them, and adds the flags of those that are there
without the bits that are false. -/
theorem Writes.properties {types : List WireType} {record : List (Option WireValue)}
    (typed : TypedProperties types record) (flags : UInt16) (index : Nat) :
    Writes (PropertyLayout.writePresent flags index (types.zip record))
      ((propertiesWire record).map fun octets =>
        (flags ||| presenceFlags index ((record.map dropFalse).map Option.isSome), octets)) := by
  induction typed generalizing flags index with
  | nil =>
    change Writes (Pure.pure flags) (.ok (flags ||| 0, []))
    rw [UInt16.or_zero]
    exact pure flags
  | absent rest ih =>
    rw [propertiesWire_cons_nil rfl, List.map_cons, List.map_cons]
    simp only [dropFalse, Option.isSome, presenceFlags_false]
    exact ih flags (index + 1)
  | @present ty value types record type rest ih =>
    subst type
    cases single : value.wireType.isBit with
    | true =>
      obtain ⟨set, rfl⟩ := WireValue.eq_bit_of_isBit single
      rw [propertiesWire_cons_nil rfl, List.map_cons, List.map_cons]
      cases set with
      | false =>
        simp only [dropFalse, Option.isSome, presenceFlags_false]
        exact ih flags (index + 1)
      | true =>
        simp only [dropFalse, Option.isSome, presenceFlags_true, ← UInt16.or_assoc]
        exact ih (flags ||| presenceBit index) (index + 1)
    | false =>
      -- The value is written before the later properties, but its flag is carried to the end.
      have written := (Writes.value value).bind fun _ => ih (flags ||| presenceBit index) (index + 1)
      have step : PropertyLayout.writePresent flags index
          ((value.wireType, some value) :: types.zip record) = (do
            value.write
            PropertyLayout.writePresent (flags ||| presenceBit index) (index + 1)
              (types.zip record)) := by
        rw [PropertyLayout.writePresent, single]
        rfl
      rw [List.zip_cons_cons, step, propertiesWire, propertyWire_of_single single, List.map_cons,
        List.map_cons, dropFalse_of_single single]
      simp only [Option.isSome, presenceFlags_true, ← UInt16.or_assoc]
      cases h : value.wire <;> cases h' : propertiesWire record <;> rw [h, h'] at written <;>
        exact written

namespace PropertyForm

variable {ty : WireType} {value : Option WireValue} {octets : Bytes}

/-- What is written for a value is of the form of the value, or of none for a bit that is false. -/
theorem of_wire {value : WireValue} (h : propertyWire (some value) = .ok octets) :
    PropertyForm value.wireType (dropFalse (some value)) octets := by
  cases single : value.wireType.isBit with
  | true =>
    obtain ⟨set, rfl⟩ := WireValue.eq_bit_of_isBit single
    cases h
    cases set with
    | false => exact absent
    | true => exact bit
  | false =>
    rw [propertyWire_of_single single] at h
    rw [dropFalse_of_single single]
    exact PropertyForm.value (WireForm.of_wire h single)

theorem ne_false (h : PropertyForm ty value octets) : value ≠ some (.bit false) := by
  cases h with
  | absent => nofun
  | bit => nofun
  | value form =>
    rintro ⟨⟩
    exact form

theorem dropFalse_eq (h : PropertyForm ty value octets) : dropFalse value = value := by
  cases h with
  | absent => rfl
  | bit => rfl
  | value form => exact dropFalse_of_single form.isBit_eq_false

theorem length_roles (h : PropertyForm ty value octets) :
    (propertyRoles value).length = octets.length := by
  cases h with
  | absent => rfl
  | bit => rfl
  | value form =>
    rw [propertyRoles_of_single form.isBit_eq_false]
    exact form.length_roles

/-- What is written for a property is the normal form of all octets of its form. -/
theorem wire (h : PropertyForm ty value octets) :
    propertyWire value = .ok (normalize (propertyRoles value) octets) := by
  cases h with
  | absent => rfl
  | bit => rfl
  | value form =>
    rw [propertyWire_of_single form.isBit_eq_false, propertyRoles_of_single form.isBit_eq_false]
    exact form.wire

end PropertyForm

namespace PropertiesForm

variable {types : List WireType} {record : List (Option WireValue)} {octets : Bytes}

/-- What is written for properties is of their forms, without the bits that are false. -/
theorem of_wire (typed : TypedProperties types record) (h : propertiesWire record = .ok octets) :
    PropertiesForm types (record.map dropFalse) octets := by
  induction typed generalizing octets with
  | nil =>
    cases h
    exact nil
  | absent rest ih =>
    rw [propertiesWire_cons_nil rfl] at h
    exact cons .absent (ih h)
  | present type rest ih =>
    subst type
    obtain ⟨front, written, h⟩ := Except.bind_eq_ok.mp h
    obtain ⟨back, written', same⟩ := Except.bind_eq_ok.mp h
    cases same
    exact cons (.of_wire written) (ih written')

theorem typed (h : PropertiesForm types record octets) : TypedProperties types record := by
  induction h with
  | nil => exact .nil
  | cons first rest ih =>
    cases first with
    | absent => exact .absent ih
    | bit => exact .present rfl ih
    | value form => exact .present rfl ih

theorem length_eq (h : PropertiesForm types record octets) : record.length = types.length :=
  h.typed.length_eq

/-- No bit that is there is false. -/
theorem false_not_mem (h : PropertiesForm types record octets) : some (.bit false) ∉ record := by
  induction h with
  | nil => exact List.not_mem_nil
  | cons first rest ih =>
    rw [List.mem_cons, not_or]
    exact ⟨first.ne_false.symm, ih⟩

theorem map_dropFalse (h : PropertiesForm types record octets) : record.map dropFalse = record := by
  induction h with
  | nil => rfl
  | cons first rest ih => rw [List.map_cons, first.dropFalse_eq, ih]

theorem length_roles (h : PropertiesForm types record octets) :
    (record.flatMap propertyRoles).length = octets.length := by
  induction h with
  | nil => rfl
  | cons first rest ih =>
    rw [List.flatMap_cons, List.length_append, List.length_append, first.length_roles, ih]

/-- What is written for properties is the normal form of all octets of their forms. -/
theorem wire (h : PropertiesForm types record octets) :
    propertiesWire record = .ok (normalize (record.flatMap propertyRoles) octets) := by
  induction h with
  | nil => rfl
  | cons first rest ih =>
    rw [propertiesWire, first.wire, ih, List.flatMap_cons, normalize_append first.length_roles]
    rfl

end PropertiesForm

end WireProtocol
