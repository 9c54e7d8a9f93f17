import WireProtocol.Proofs.Emit.MethodMirror
import WireProtocol.Proofs.Emit.PropertyStatements

/-!
# Property codecs and the types of the properties

What the code for the properties of a class does is determined by their places and types.

* `WireType.propertyStep`: the step that reads or writes a property, unless it is a bit.
* `DecodesProperties`, `PropertyDecoderCode.decodesProperties`: a decoder reads every property, in order,
  under the condition that its flag is set.
* `EncodesProperties`, `PropertyEncoderCode.encodesProperties`: an encoder writes every property that is
  there, in order, and sets its flag.
-/

namespace WireProtocol

open Tokens

variable {d : Description} {c : Class} {function record : Ident} {properties : List (Field × WireType)}

/-- The step that reads or writes a property. There is none for a bit. -/
def WireType.propertyStep (ty : WireType) : Option String :=
  if ty.isBit then none else some ty.name

theorem callOf_text {α : Type} (ty : WireType) (content : α) :
    ((PropertyDecoderCode.callOf ty).toList.map fun call => (call.text, content)) =
      ty.propertyStep.toList.map (·, content) := by
  cases ty <;> rfl

/-- The flag of the property at a place, as it is spelled. -/
def presenceWord (place : Nat) : String :=
  flagWord (0x8000 >>> place)

theorem flagWord_presenceBit (place : Nat) : flagWord (presenceBit place).toNat = presenceWord place := by
  have room : 0x8000 >>> place < UInt16.size :=
    Nat.lt_of_le_of_lt (Nat.shiftRight_le 0x8000 place) (by decide)
  rw [presenceWord, presenceBit, UInt16.toNat_ofNat_of_lt' room]

/-- What is made of the fields of a list one by one corresponds to the fields with their types. -/
theorem Description.forall₂_of_classify {β : Type} {make : Field → Except GenerateError β}
    {fields : FieldList} {made : List β} (classified : d.classify fields = .ok properties)
    (h : fields.toList.mapM make = .ok made) :
    List.Forall₂ (fun property value => d.fieldType property.1 = .ok property.2 ∧
      make property.1 = .ok value) properties made := by
  obtain ⟨names, types⟩ := classify_eq_ok.mp classified
  rw [← names] at h
  exact (List.forall₂_and_left _ _).mpr
    ⟨types, List.forall₂_map_left_iff.mp (Except.forall₂_of_mapM h)⟩

/-! ## Decoders -/

/-- The local of the property is defined under the condition that the flag is set, by the step of the type
if there is one. -/
structure ReadsProperty (property : Field × WireType) (binding : String × Tokens) : Prop where
  slot : binding.1 = property.1.propertyLocal.text
  block : ∃ condition block, conditionals binding.2 = [(condition, block)] ∧
    masks "flags" condition = [presenceWord property.1.index] ∧
    calls "r" block = property.2.propertyStep.toList.map (·, [])

/-- What a decoder does: it reads the flags and then every property, and the locals of the properties become
the fields of the record. If there are no properties, there are no flags either. -/
structure DecodesProperties (properties : List (Field × WireType)) (decoder : Tokens) : Prop where
  calls : calls "r" decoder = if properties.isEmpty then [] else
    ("short", []) :: properties.flatMap (fun property => property.2.propertyStep.toList.map (·, [])) ++
      [("finish", [])]
  bindings : ∃ first slots, bindings decoder = first ++ slots ∧
    first.map (·.1) = (if properties.isEmpty then [] else ["r", "flags"]) ∧
    List.Forall₂ ReadsProperty properties slots
  fields : List.Forall₂ (fun property given => property.1.Named given.1 ∧
    given.2 = property.1.propertyLocal.text) properties (initializers decoder)

namespace PropertyDecoderCode

/-- The statement for a property comes from its place and its type. -/
theorem readOf_eq_ok {property : Field × WireType} {read : PropertyRead × Ident × Ident}
    (known : d.fieldType property.1 = .ok property.2) (h : readOf d property.1 = .ok read) :
    read.1 = ⟨property.1.propertyLocal, presenceBit property.1.index, callOf property.2⟩ ∧
      property.1.Named read.2.1.text ∧ read.2.2 = property.1.propertyLocal := by
  obtain ⟨id, named, h⟩ := Except.bind_eq_ok.mp h
  obtain ⟨ty, typed, h⟩ := Except.bind_eq_ok.mp h
  cases known.symm.trans (Except.mapError_eq_ok.mp typed)
  cases h
  exact ⟨rfl, ⟨id, named, rfl⟩, rfl⟩

theorem readsProperty {property : Field × WireType} {s : PropertyRead}
    (same : s = ⟨property.1.propertyLocal, presenceBit property.1.index, callOf property.2⟩) :
    ReadsProperty property (s.target.text, readValue s) := by
  subst same
  refine ⟨rfl, _, _, conditionals_value _, ?_, ?_⟩
  · rw [masks_condition, flagWord_presenceBit]
  · rw [calls, calls_present, callOf_text]

theorem decodesProperties {code : PropertyDecoderCode}
    (classified : d.classify c.properties = .ok properties)
    (h : ofClass d c function record = .ok code) : DecodesProperties properties code.body := by
  obtain ⟨reads, made, same⟩ := Except.bind_eq_ok.mp h
  cases same
  have each := (Description.forall₂_of_classify classified made).imp fun _ _ h => readOf_eq_ok h.1 h.2
  have empty : (reads.map (·.1)).isEmpty = properties.isEmpty := by
    cases each <;> rfl
  have piece := piece_body ⟨function, record, c.name, c.id, reads.map (·.1), reads.map (·.2)⟩
  rw [empty] at piece
  constructor
  case calls =>
    have steps : properties.flatMap (fun property => property.2.propertyStep.toList.map (·, ([] : Tokens))) =
        (reads.map (·.1)).flatMap fun s => s.call.toList.map fun call => (call.text, []) := by
      rw [List.flatMap_map]
      refine (each.imp fun property read h => ?_).flatMap_eq
      rw [h.1, callOf_text]
    rw [calls, piece.calls.search_eq, steps, List.cons_append]
  case bindings =>
    have slots : List.Forall₂ ReadsProperty properties
        ((reads.map (·.1)).map fun s => (s.target.text, readValue s)) := by
      rw [List.map_map, List.forall₂_map_right_iff]
      exact each.imp fun property read h => readsProperty h.1
    rw [bindings, piece.bindings.search_eq]
    cases properties with
    | nil => exact ⟨[], [], rfl, rfl, .nil⟩
    | cons => exact ⟨[("r", _), ("flags", flagsValue)], _, rfl, rfl, slots⟩
  case fields =>
    rw [initializers, piece.initializers.search_eq, List.map_map, List.forall₂_map_right_iff]
    exact each.imp fun property read h => ⟨h.2.1, congrArg Ident.text h.2.2⟩

end PropertyDecoderCode

/-! ## Encoders -/

/-- If the property is there, its flag is set, and it is written by the step of the type if there is one. -/
structure WritesProperty (property : Field × WireType) (conditional : Tokens × Tokens) : Prop where
  value : ∃ text, property.1.Named text ∧ selections "properties" conditional.1 = [text]
  flag : settings "flags" conditional.2 = [presenceWord property.1.index]
  call : calls "w" conditional.2 = property.2.propertyStep.toList.map (·, [.word "value"])

/-- What an encoder does: it writes every property that is there, and puts the flags in front. If there are no
properties, there are no flags either. -/
structure EncodesProperties (properties : List (Field × WireType)) (encoder : Tokens) : Prop where
  calls : calls "w" encoder =
    properties.flatMap (fun property => property.2.propertyStep.toList.map (·, [.word "value"])) ++
      if properties.isEmpty then [] else [("into_flagged", [.word "flags"])]
  conditionals : List.Forall₂ WritesProperty properties (conditionals encoder)

namespace PropertyEncoderCode

/-- The statement for a property comes from its place and its type. -/
theorem writeOf_eq_ok {property : Field × WireType} {write : PropertyWrite}
    (known : d.fieldType property.1 = .ok property.2) (h : writeOf d property.1 = .ok write) :
    property.1.Named (field write).text ∧ mask write = presenceBit property.1.index ∧
      call? write = PropertyDecoderCode.callOf property.2 := by
  obtain ⟨id, named, h⟩ := Except.bind_eq_ok.mp h
  obtain ⟨ty, typed, h⟩ := Except.bind_eq_ok.mp h
  cases known.symm.trans (Except.mapError_eq_ok.mp typed)
  cases bit : property.2.isBit with
  | true =>
    rw [bit] at h
    cases h
    exact ⟨⟨id, named, rfl⟩, rfl, by rw [PropertyDecoderCode.callOf, bit]; rfl⟩
  | false =>
    have called : PropertyDecoderCode.callOf property.2 = some (callName property.2) := by
      rw [PropertyDecoderCode.callOf, bit]
      rfl
    rw [bit] at h
    cases integer : property.2.isInteger <;>
    · rw [integer] at h
      cases h
      exact ⟨⟨id, named, rfl⟩, rfl, called.symm⟩

theorem writesProperty {property : Field × WireType} {write : PropertyWrite}
    (named : property.1.Named (field write).text) (flag : mask write = presenceBit property.1.index)
    (called : call? write = PropertyDecoderCode.callOf property.2) :
    WritesProperty property (condition write, block write) where
  value := ⟨_, named, fields_condition write⟩
  flag := by rw [flags_block, flag, flagWord_presenceBit]
  call := by rw [calls_block, called, callOf_text]

theorem encodesProperties {code : PropertyEncoderCode}
    (classified : d.classify c.properties = .ok properties)
    (h : ofClass d c function record = .ok code) : EncodesProperties properties code.body := by
  obtain ⟨writes, made, same⟩ := Except.bind_eq_ok.mp h
  cases same
  have each := (Description.forall₂_of_classify classified made).imp fun _ _ h => writeOf_eq_ok h.1 h.2
  have empty : writes.isEmpty = properties.isEmpty := by
    cases each <;> rfl
  have piece := piece_body ⟨function, record, writes⟩
  rw [empty] at piece
  constructor
  case calls =>
    have steps : properties.flatMap
        (fun property => property.2.propertyStep.toList.map (·, [Token.word "value"])) =
          writes.flatMap fun s => (call? s).toList.map fun call => (call.text, [.word "value"]) := by
      refine (each.imp fun property write h => ?_).flatMap_eq
      rw [h.2.2, callOf_text]
    rw [calls, piece.calls.search_eq, steps]
  case conditionals =>
    rw [conditionals, piece.conditionals.search_eq, List.forall₂_map_right_iff]
    exact each.imp fun property write h => writesProperty h.1 h.2.1 h.2.2

end PropertyEncoderCode

end WireProtocol
