import WireProtocol.Emit.Generate
import WireProtocol.Proofs.Emit.Guarded
import WireProtocol.Proofs.Emit.MethodMirror

/-!
# Code generation that may panic

Every part of a generation once more. Here the operations that have a domain panic outside of it, and each
part comes with the proof that it is the part that never panics.

* `Declarations.guardedItems_eq`, `MethodCode.guardedItems_eq`, `PropertyCode.guardedItems_eq`: so it is for
  the declarations and for the code of methods and of properties. Names are checked before they become
  identifiers, a group has eight bits at most, and a class has fifteen properties at most.
* `guardedGenerate`, `guardedSteps_eq`: and for whole generations.
-/

namespace WireProtocol

open Guarded Tokens

/-! ## Names -/

/-- The name of the record of a method. -/
def Method.guardedTypeIdent (m : Method) : Guarded Ident :=
  Ident.guardedOfType [m.className, m.name]

/-- The name of a class among all classes. -/
def Class.guardedTypeIdent (c : Class) : Guarded Ident :=
  Ident.guardedOfType [c.name]

/-- The name of the record of the properties of a class. -/
def Class.guardedPropertiesIdent (c : Class) : Guarded Ident :=
  Ident.guardedOfType [c.name, "properties"]

@[simp] theorem Method.guardedTypeIdent_eq (m : Method) : m.guardedTypeIdent = quiet m.typeIdent :=
  Ident.guardedOfType_eq _

@[simp] theorem Class.guardedTypeIdent_eq (c : Class) : c.guardedTypeIdent = quiet c.typeIdent :=
  Ident.guardedOfType_eq _

@[simp] theorem Class.guardedPropertiesIdent_eq (c : Class) :
    c.guardedPropertiesIdent = quiet c.propertiesIdent :=
  Ident.guardedOfType_eq _

/-! ## Declarations -/

namespace Declarations

variable {d : Description}

/-- The version, the port and the constants. The identifiers come first; what is made of them has no
domain. -/
def guardedConstants (d : Description) : Guarded (List Item) := do
  let _ ← d.constants.mapM fun c => do
    let id ← Ident.guardedOfConstant c.name
    return Item.constant [] id (words "u32") (Literal.number c.code.toNat "u32")
  quiet (constants d)

/-- An argument in the record of its method. -/
def guardedArgument (d : Description) (owner : String) (field : Field) :
    Guarded (Ident × Tokens × Tokens) := do
  let id ← Ident.guardedOfField field.name
  let ty ← lift (Gen.ask (d.fieldType field))
  let init ← quiet (defaultTokens owner field ty)
  return (id, typeOf ty, init)

/-- The record of a method. -/
def guardedMethodRecord (d : Description) (m : Method) : Guarded (List Item) := do
  let record ← m.guardedTypeIdent
  let arguments ← m.arguments.toList.mapM (guardedArgument d m.qualifiedName)
  let fields := arguments.map fun (id, type, _) => (id, type)
  let doc := Item.doc s!" `{m.qualifiedName}` arguments."
  if m.arguments.toList.any (·.default.isSome) then
    return [
      .record (doc ++ Item.derive ["Clone", "Debug", "PartialEq"]) record fields,
      defaultImplementation record (arguments.map fun (id, _, init) => (id, init))]
  else
    return [.record (doc ++ Item.derive ["Clone", "Debug", "Default", "PartialEq"]) record fields]

/-- A property in the record of its class. -/
def guardedProperty (d : Description) (field : Field) : Guarded (Ident × Tokens) := do
  let id ← Ident.guardedOfField field.name
  let ty ← lift (Gen.ask (d.fieldType field))
  return (id, words "Option <" ++ typeOf ty ++ words ">")

/-- The record of the properties of a class. -/
def guardedPropertiesRecord (d : Description) (c : Class) : Guarded Item := do
  let record ← c.guardedPropertiesIdent
  let fields ← c.properties.toList.mapM (guardedProperty d)
  return .record
    (Item.doc s!" `{c.name}` content properties." ++
      Item.derive ["Clone", "Debug", "Default", "PartialEq"])
    record fields

/-- The records of a class. -/
def guardedClassRecords (d : Description) (c : Class) : Guarded (List Item) := do
  lift (Gen.report (.declaringClass c.name c.methods.length))
  let methods ← c.methods.mapM (guardedMethodRecord d)
  let properties ← guardedPropertiesRecord d c
  return methods.flatten ++ [properties]

/-- The names of all methods. Here, too, the identifiers come first. -/
def guardedMethodNames (d : Description) : Guarded (List Item) := do
  let _ ← d.methods.mapM fun m => do return (← m.guardedTypeIdent, m.qualifiedName)
  quiet (methodNames d)

/-- A method with its arguments. -/
def guardedMethodChoice (d : Description) : Guarded (List Item) := do
  let variants ← d.methods.mapM fun m => do
    let id ← m.guardedTypeIdent
    return (id, id, member "MethodName" id)
  return recordChoice " A decoded method with its arguments." "Method" "name"
    (words "MethodName") variants

/-- The properties of a class. -/
def guardedPropertiesChoice (d : Description) : Guarded (List Item) := do
  let variants ← d.classes.mapM fun c => do
    let id ← c.guardedTypeIdent
    let record ← c.guardedPropertiesIdent
    return (id, record, Literal.number c.id.toNat "u16")
  return recordChoice " Content properties of any class." "Properties" "class_id" (words "u16")
    variants

/-- The declarations of a description, in order. -/
def guardedItems (d : Description) : Guarded (List Item) := do
  let constants ← guardedConstants d
  let records ← d.classes.mapM (guardedClassRecords d)
  let methodNames ← guardedMethodNames d
  let methodChoice ← guardedMethodChoice d
  let propertiesChoice ← guardedPropertiesChoice d
  return constants ++ records.flatten ++ methodNames ++ methodChoice ++ propertiesChoice

theorem guardedConstants_eq (d : Description) : guardedConstants d = quiet (constants d) :=
  mapM_again (fun c => by simp) d.constants _

@[simp] theorem guardedArgument_eq (owner : String) :
    guardedArgument d owner = fun field => lift (argument d owner field) := by
  funext field
  simp [guardedArgument, argument]

@[simp] theorem guardedMethodRecord_eq : guardedMethodRecord d = fun m => lift (methodRecord d m) := by
  funext m
  simp only [guardedMethodRecord, methodRecord]
  split <;> simp

@[simp] theorem guardedProperty_eq : guardedProperty d = fun field => lift (property d field) := by
  funext field
  simp [guardedProperty, property]

@[simp] theorem guardedClassRecords_eq : guardedClassRecords d = fun c => lift (classRecords d c) := by
  funext c
  simp [guardedClassRecords, classRecords, guardedPropertiesRecord, propertiesRecord]

theorem guardedMethodNames_eq (d : Description) : guardedMethodNames d = quiet (methodNames d) :=
  mapM_again (fun m => by simp) d.methods _

theorem guardedMethodChoice_eq (d : Description) : guardedMethodChoice d = quiet (methodChoice d) := by
  simp [guardedMethodChoice, methodChoice]

theorem guardedPropertiesChoice_eq (d : Description) :
    guardedPropertiesChoice d = quiet (propertiesChoice d) := by
  simp [guardedPropertiesChoice, propertiesChoice]

theorem guardedItems_eq (d : Description) : guardedItems d = lift (items d) := by
  simp [guardedItems, items, guardedConstants_eq, guardedMethodNames_eq, guardedMethodChoice_eq,
    guardedPropertiesChoice_eq]

end Declarations

/-! ## Code for method payloads -/

/-- The step that reads or writes a wire type. -/
def guardedCallName : WireType → Guarded Ident
  | .bit | .octet => Ident.guardedPlain "octet"
  | .short => Ident.guardedPlain "short"
  | .long => Ident.guardedPlain "long"
  | .longlong => Ident.guardedPlain "longlong"
  | .timestamp => Ident.guardedPlain "timestamp"
  | .shortstr => Ident.guardedPlain "shortstr"
  | .longstr => Ident.guardedPlain "longstr"
  | .table => Ident.guardedPlain "table"

/-- The local that holds the value of a field. -/
def Field.guardedLocal (f : Field) : Guarded Ident :=
  Ident.guardedPlain s!"f{f.index}"

/-- The local that holds the octet of a group of bits that begins at an index. -/
def guardedBitsLocal (start : Nat) : Guarded Ident :=
  Ident.guardedPlain s!"bits{start}"

@[simp] theorem guardedCallName_eq (ty : WireType) : guardedCallName ty = pure (callName ty) := by
  cases ty <;> exact Ident.guardedPlain_eq (by decide)

@[simp] theorem Field.guardedLocal_eq (f : Field) : f.guardedLocal = pure f.local :=
  Ident.guardedPlain_eq (Ident.accepted_numbered (by decide) f.index)

@[simp] theorem guardedBitsLocal_eq (start : Nat) : guardedBitsLocal start = pure (bitsLocal start) :=
  Ident.guardedPlain_eq (Ident.accepted_numbered (by decide) start)

namespace DecoderCode

/-- The mask of a bit in its group. -/
def guardedMask (offset : Nat) : Guarded UInt8 :=
  perform (.groupMask offset) (mask offset)

/-- The statement that reads a chunk. -/
def guardedReadOf : Chunk Field → Guarded ReadStatement
  | .fixedWidth field ty => do return ⟨← field.guardedLocal, ← guardedCallName ty⟩
  | .variableWidth field ty => do return ⟨← field.guardedLocal, ← guardedCallName ty⟩
  | .bits members => do
    return ⟨← guardedBitsLocal (groupStart members), ← guardedCallName .bit⟩

/-- The statement for a bit of a group behind the end of the payload. -/
def guardedBitCheck (start : Nat) (field : Field) (offset : Nat) : Guarded CheckStatement := do
  return .bit (← field.guardedLocal) (← guardedBitsLocal start) (← guardedMask offset)

/-- The statements for a chunk behind the end of the payload. -/
def guardedChecksOf (hasContent : Bool) : Chunk Field → Guarded (List CheckStatement)
  | .fixedWidth _ _ => return []
  | .variableWidth field ty => do
    if ty = .shortstr ∧ !hasContent then return [.text (← field.guardedLocal)] else return []
  | .bits members =>
    members.zipIdx.mapM fun (field, offset) => guardedBitCheck (groupStart members) field offset

/-- The code that decodes a method from its chunks. -/
def guardedOfMethod (m : Method) (function record : Ident) (chunks : List (Chunk Field)) :
    Guarded DecoderCode := do
  let reads ← chunks.mapM guardedReadOf
  let checks ← chunks.mapM (guardedChecksOf m.hasContent)
  let fields ← m.arguments.toList.mapM fun field => do
    return (← Ident.guardedOfField field.name, ← field.guardedLocal)
  return {
    function, record
    owner := m.qualifiedName
    reads
    checks := checks.flatten
    fields }

/-- The bits of a group lie inside of an octet. -/
theorem guardedMask_eq {offset : Nat} (h : offset < maxBitGroup) :
    guardedMask offset = pure (mask offset) :=
  perform_of_allowed (.groupMask offset) (Nat.le_of_lt_succ h) _

@[simp] theorem guardedReadOf_eq : guardedReadOf = fun chunk => pure (readOf chunk) := by
  funext chunk
  cases chunk <;> simp [guardedReadOf, readOf]

theorem guardedChecksOf_eq (hasContent : Bool) {chunk : Chunk Field} (sound : chunk.Sound) :
    guardedChecksOf hasContent chunk = pure (checksOf hasContent chunk) := by
  cases chunk with
  | fixedWidth field ty => rfl
  | variableWidth field ty =>
    simp only [guardedChecksOf, checksOf]
    split <;> simp
  | bits members =>
    apply mapM_eq_pure
    rintro ⟨field, offset⟩ member
    have inside : offset < maxBitGroup :=
      (List.snd_lt_of_mem_zipIdx member).trans_le sound.2
    simp [guardedBitCheck, guardedMask_eq inside]

theorem guardedOfMethod_eq (m : Method) (function record : Ident) {chunks : List (Chunk Field)}
    (sound : ∀ chunk ∈ chunks, chunk.Sound) :
    guardedOfMethod m function record chunks = quiet (ofMethod m function record chunks) := by
  have checks := mapM_eq_pure fun chunk member => guardedChecksOf_eq m.hasContent (sound chunk member)
  simp [guardedOfMethod, ofMethod, checks, List.flatMap_def]

end DecoderCode

namespace EncoderCode

/-- The statement that writes a chunk. -/
def guardedWriteOf : Chunk Field → Guarded WriteStatement
  | .fixedWidth field ty => do
    let id ← Ident.guardedOfField field.name
    return .integer (← guardedCallName ty) id
  | .variableWidth field ty => do
    let id ← Ident.guardedOfField field.name
    return .counted (← guardedCallName ty) id
  | .bits members => do
    let ids ← members.mapM fun field => Ident.guardedOfField field.name
    return .bits (← guardedCallName .bit) ids.zipIdx

/-- The code that encodes a method from its chunks. -/
def guardedOfChunks (function record : Ident) (chunks : List (Chunk Field)) :
    Guarded EncoderCode := do
  return { function, record, writes := ← chunks.mapM guardedWriteOf }

@[simp] theorem guardedWriteOf_eq : guardedWriteOf = fun chunk => quiet (writeOf chunk) := by
  funext chunk
  cases chunk <;> simp [guardedWriteOf, writeOf]

@[simp] theorem guardedOfChunks_eq (function record : Ident) (chunks : List (Chunk Field)) :
    guardedOfChunks function record chunks = quiet (ofChunks function record chunks) := by
  simp [guardedOfChunks, ofChunks]

end EncoderCode

namespace MethodCode

variable {d : Description}

/-- The case of a method in the question whether the sender waits for a reply. -/
def guardedSynchronousArm (d : Description) (m : Method) (id : Ident) :
    Guarded (Tokens × Tokens) := do
  let variant := member "Method" id
  let overriding ← quiet (if m.synchronous then noWait? d m.arguments.toList else pure none)
  match overriding with
  | some field =>
    let flag ← Ident.guardedOfField field.name
    return (variant ++ parens (words "ref record"), words "! record ." ++ name flag)
  | none => return (variant ++ parens (words "_"), Literal.bool m.synchronous)

/-- What the tables say about a method. -/
def guardedEntry (d : Description) (m : Method) : Guarded Entry := do
  let id ← m.guardedTypeIdent
  return ⟨id, m, ← guardedSynchronousArm d m id⟩

/-- The tables about the methods, behind what they are made of. -/
def guardedTables (d : Description) : Guarded (List Item) := do
  let _ ← d.methods.mapM (guardedEntry d)
  quiet (tables d)

/-- The code that decodes a method. -/
def guardedDecoder (d : Description) (m : Method) : Guarded DecoderCode := do
  lift (Gen.report (.generatingMethod m.qualifiedName))
  let record ← m.guardedTypeIdent
  let function ← Ident.guardedOfFunction ["decode", m.className, m.name]
  let chunks ← quiet (chunks d m)
  DecoderCode.guardedOfMethod m function record chunks

/-- The code that encodes a method. -/
def guardedEncoder (d : Description) (m : Method) : Guarded EncoderCode := do
  let record ← m.guardedTypeIdent
  let function ← Ident.guardedOfFunction ["encode", m.className, m.name]
  EncoderCode.guardedOfChunks function record (← quiet (chunks d m))

/-- The code for all methods, in order. -/
def guardedItems (d : Description) : Guarded (List Item) := do
  let tables ← guardedTables d
  let decoders ← d.methods.mapM (guardedDecoder d)
  let encoders ← d.methods.mapM (guardedEncoder d)
  return tables ++ [decodeDispatch decoders] ++ decoders.map (·.item) ++
    [encodeDispatch encoders] ++ encoders.map (·.item)

theorem guardedSynchronousArm_eq (m : Method) (id : Ident) :
    guardedSynchronousArm d m id = quiet (synchronousArm d m id) := by
  unfold guardedSynchronousArm synchronousArm
  split
  · simp only [quiet_bind]
    refine bind_congr fun overriding => ?_
    cases overriding <;> simp
  · rfl

theorem guardedEntry_eq (m : Method) : guardedEntry d m = quiet (entry d m) := by
  simp [guardedEntry, entry, guardedSynchronousArm_eq]

theorem guardedTables_eq (d : Description) : guardedTables d = quiet (tables d) :=
  mapM_again guardedEntry_eq d.methods _

@[simp] theorem guardedDecoder_eq : guardedDecoder d = fun m => lift (decoder d m) := by
  funext m
  simp only [guardedDecoder, decoder, lift_bind, lift_ofExcept, Method.guardedTypeIdent_eq,
    Ident.guardedOfFunction_eq]
  refine bind_congr fun _ => bind_congr fun record => bind_congr fun function => ?_
  refine quiet_bind_congr fun chunks packed => ?_
  obtain ⟨sound, -⟩ := Description.sound_of_packFields (Except.mapError_eq_ok.mp packed)
  exact DecoderCode.guardedOfMethod_eq m function record sound

@[simp] theorem guardedEncoder_eq : guardedEncoder d = fun m => quiet (encoder d m) := by
  funext m
  simp [guardedEncoder, encoder]

theorem guardedItems_eq (d : Description) : guardedItems d = lift (items d) := by
  simp [guardedItems, items, guardedTables_eq]

end MethodCode

/-! ## Code for property payloads -/

/-- The local that holds a property. -/
def Field.guardedPropertyLocal (f : Field) : Guarded Ident :=
  Ident.guardedPlain s!"p{f.index}"

/-- The presence flag of the property at a place. -/
def guardedPresenceBit (index : Nat) : Guarded UInt16 :=
  perform (.presenceBit index) (presenceBit index)

/-- The flags that no property of a class with so many of them has. -/
def guardedReservedMask (count : Nat) : Guarded UInt16 :=
  perform (.reservedMask count) (reservedMask count)

@[simp] theorem Field.guardedPropertyLocal_eq (f : Field) :
    f.guardedPropertyLocal = pure f.propertyLocal :=
  Ident.guardedPlain_eq (Ident.accepted_numbered (by decide) f.index)

/-- The index of a field is that of a place in its list. -/
theorem FieldList.index_lt {fields : FieldList} {field : Field} (member : field ∈ fields.toList) :
    field.index < fields.length := by
  have index := List.mem_map_of_mem (f := Field.index) member
  rwa [fields.indexed, List.mem_range] at index

namespace Class

variable {c : Class}

/-- The flag of a property is one of the first fifteen. -/
theorem presenceBit_allowed (few : c.properties.length ≤ maxProperties) {field : Field}
    (member : field ∈ c.properties.toList) : (PartialOperation.presenceBit field.index).Allowed :=
  Nat.le_of_lt_succ ((FieldList.index_lt member).trans_le few)

/-- Some flags are left for what is reserved, and not all of them. -/
theorem reservedMask_allowed (few : c.properties.length ≤ maxProperties)
    (filled : c.properties.isEmpty = false) :
    (PartialOperation.reservedMask c.properties.length).Allowed :=
  ⟨List.length_pos_iff.mpr (List.isEmpty_eq_false_iff.mp filled), few⟩

end Class

namespace PropertyDecoderCode

variable {d : Description} {c : Class}

/-- The step that reads or writes a property, unless it is a bit. -/
def guardedCallOf (ty : WireType) : Guarded (Option Ident) := do
  if ty.isBit then return none else return some (← guardedCallName ty)

/-- The statement that reads a property, and the field that it fills. -/
def guardedReadOf (d : Description) (field : Field) : Guarded (PropertyRead × Ident × Ident) := do
  let slot ← field.guardedPropertyLocal
  let id ← Ident.guardedOfField field.name
  let mask ← guardedPresenceBit field.index
  let ty ← quiet ((d.fieldType field).mapError .description)
  return (⟨slot, mask, ← guardedCallOf ty⟩, id, slot)

/-- The code that decodes the properties of a class. A class without properties has no flags, and none of
them is reserved. -/
def guardedOfClass (d : Description) (c : Class) (function record : Ident) :
    Guarded PropertyDecoderCode := do
  if !c.properties.isEmpty then
    let _ ← guardedReservedMask c.properties.length
  let reads ← c.properties.toList.mapM (guardedReadOf d)
  return {
    function, record
    owner := c.name
    classId := c.id
    reads := reads.map (·.1)
    fields := reads.map (·.2) }

theorem guardedReadOf_eq {field : Field} (h : (PartialOperation.presenceBit field.index).Allowed) :
    guardedReadOf d field = quiet (readOf d field) := by
  have call (ty : WireType) : guardedCallOf ty = pure (callOf ty) := by
    unfold guardedCallOf callOf
    split <;> simp
  simp [guardedReadOf, readOf, call, guardedPresenceBit, perform_of_allowed _ h]

theorem guardedOfClass_eq (function record : Ident) (few : c.properties.length ≤ maxProperties) :
    guardedOfClass d c function record = quiet (ofClass d c function record) := by
  have reads : c.properties.toList.mapM (guardedReadOf d) =
      c.properties.toList.mapM fun field => quiet (readOf d field) :=
    mapM_congr fun field member => guardedReadOf_eq (c.presenceBit_allowed few member)
  cases filled : c.properties.isEmpty with
  | true => simp [guardedOfClass, ofClass, reads, filled]
  | false =>
    have reserved := c.reservedMask_allowed few filled
    simp [guardedOfClass, ofClass, reads, filled, guardedReservedMask, perform_of_allowed _ reserved]

end PropertyDecoderCode

namespace PropertyEncoderCode

variable {d : Description} {c : Class}

/-- The statement that writes a property. -/
def guardedWriteOf (d : Description) (field : Field) : Guarded PropertyWrite := do
  let id ← Ident.guardedOfField field.name
  let mask ← guardedPresenceBit field.index
  let ty ← quiet ((d.fieldType field).mapError .description)
  if ty.isBit then
    return .bit id mask
  else if ty.isInteger then
    return .integer (← guardedCallName ty) id mask
  else
    return .counted (← guardedCallName ty) id mask

/-- The code that encodes the properties of a class. -/
def guardedOfClass (d : Description) (c : Class) (function record : Ident) :
    Guarded PropertyEncoderCode := do
  return { function, record, writes := ← c.properties.toList.mapM (guardedWriteOf d) }

theorem guardedWriteOf_eq {field : Field} (h : (PartialOperation.presenceBit field.index).Allowed) :
    guardedWriteOf d field = quiet (writeOf d field) := by
  simp only [guardedWriteOf, writeOf, quiet_bind, Ident.guardedOfField_eq, guardedPresenceBit,
    perform_of_allowed _ h, pure_bind]
  refine bind_congr fun id => bind_congr fun ty => ?_
  split
  · rfl
  · split <;> simp

theorem guardedOfClass_eq (function record : Ident) (few : c.properties.length ≤ maxProperties) :
    guardedOfClass d c function record = quiet (ofClass d c function record) := by
  have writes : c.properties.toList.mapM (guardedWriteOf d) =
      c.properties.toList.mapM fun field => quiet (writeOf d field) :=
    mapM_congr fun field member => guardedWriteOf_eq (c.presenceBit_allowed few member)
  simp [guardedOfClass, ofClass, writes]

end PropertyEncoderCode

namespace PropertyCode

variable {d : Description}

/-- The code for a class. -/
def guardedEntry (d : Description) (c : Class) : Guarded Entry := do
  lift (Gen.report (.generatingProperties c.name c.properties.length))
  let id ← c.guardedTypeIdent
  let record ← c.guardedPropertiesIdent
  let decode ← Ident.guardedOfFunction ["decode", c.name, "properties"]
  let encode ← Ident.guardedOfFunction ["encode", c.name, "properties"]
  let decoder ← PropertyDecoderCode.guardedOfClass d c decode record
  let encoder ← PropertyEncoderCode.guardedOfClass d c encode record
  return ⟨c.id, id, decoder, encoder⟩

/-- The code for all classes, in order. -/
def guardedItems (d : Description) : Guarded (List Item) := do
  let entries ← d.classes.mapM (guardedEntry d)
  return [decodeDispatch entries, encodeDispatch entries] ++
    entries.flatMap fun e => [e.decoder.item, e.encoder.item]

theorem guardedEntry_eq {c : Class} (few : c.properties.length ≤ maxProperties) :
    guardedEntry d c = lift (entry d c) := by
  simp [guardedEntry, entry, PropertyDecoderCode.guardedOfClass_eq _ _ few,
    PropertyEncoderCode.guardedOfClass_eq _ _ few]

theorem guardedItems_eq (d : Description) : guardedItems d = lift (items d) := by
  have entries : d.classes.mapM (guardedEntry d) = lift (d.classes.mapM (entry d)) := by
    rw [lift_mapM]
    exact mapM_congr fun c member => guardedEntry_eq (d.bounded c member)
  simp [guardedItems, items, entries]

end PropertyCode

/-! ## Generations -/

/-- The code of a description. -/
def Program.guardedOfDescription (d : Description) : Guarded Program := do
  let declarations ← Declarations.guardedItems d
  let methods ← MethodCode.guardedItems d
  let properties ← PropertyCode.guardedItems d
  let lookups ← quiet (LookupCode.items d)
  return { declarations, definitions := methods ++ properties ++ lookups }

/-- The steps of a generation. -/
def guardedSteps (grammar : PathGrammar) (d : Description) (config : Config) : Guarded Artifacts := do
  lift (Gen.report (.started d.version))
  let path ← quiet (config.runtimePath grammar)
  let program ← Program.guardedOfDescription d
  let name := d.version.artifactName config.artifactStem
  lift (Gen.report (.generated name d.classes.length d.constants.length))
  return program.artifacts name d.version path

/-- The artifacts of a description under settings, and what the generation reports, unless it panics. -/
def guardedGenerate (grammar : PathGrammar) (d : Description) (config : Config) :
    Option (Except GenerateError Artifacts × List Event) :=
  guardedSteps grammar d config []

theorem guardedSteps_eq (grammar : PathGrammar) (d : Description) (config : Config) :
    guardedSteps grammar d config = lift (generateSteps grammar d config) := by
  simp [guardedSteps, generateSteps, Program.guardedOfDescription, Program.ofDescription,
    Declarations.guardedItems_eq, MethodCode.guardedItems_eq, PropertyCode.guardedItems_eq]

end WireProtocol
