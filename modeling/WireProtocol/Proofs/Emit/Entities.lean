import WireProtocol.Proofs.Emit.Yields

/-!
# What generated code declares

* `Entity`: a constant, a type or a function at the top level, by its name alone.
* `Item.entities`: the entity that an item declares, if it declares one.
* `Description.entities`: the entities of a description.
* `Program.entities_of_yields`: these are the entities of the program of the description.

Names are taken without the mark of the raw form, which makes no other name.
-/

namespace WireProtocol

/-- Something with a name at the top level of generated code. -/
inductive Entity where
  | constant (name : String)
  | record (name : String) (fields : List String)
  | choice (name : String) (variants : List String)
  | function (name : String)
deriving DecidableEq

namespace Item

/-- The entity that an item declares. An implementation declares none. -/
def entities : Item → List Entity
  | constant _ id _ _ => [.constant id.bare]
  | record _ id fields => [.record id.bare (fields.map (·.1.bare))]
  | choice _ id variants => [.choice id.bare (variants.map (·.1.bare))]
  | implementation _ _ => []
  | function _ _ id _ _ _ => [.function id.bare]

theorem entities_of_each {α : Type} {items : List Item} {xs : List α} {k : α → Entity}
    (h : items.map Item.entities = xs.map fun x => [k x]) :
    items.flatMap Item.entities = xs.map k := by
  rw [List.flatMap_def, h, ← List.flatMap_def, ← List.map_eq_flatMap]

theorem entities_of_groups {α : Type} {groups : List (List Item)} {xs : List α}
    {k : α → List Entity} (h : groups.map (·.flatMap Item.entities) = xs.map k) :
    groups.flatten.flatMap Item.entities = xs.flatMap k := by
  rw [← List.flatMap_id', List.flatMap_assoc, List.flatMap_def, h, ← List.flatMap_def]

end Item

/-- The entities of a program, those of its declarations first. -/
def Program.entities (program : Program) : List Entity :=
  (program.declarations ++ program.definitions).flatMap Item.entities

namespace Ident

/-- A spelling as a name: with an underscore behind it where no mark makes it one. -/
def settle (spelling : String) : String :=
  if fixedKeywords.contains spelling then spelling ++ "_" else spelling

theorem bare_of_ofSpelling {spelling source : String} {id : Ident}
    (h : ofSpelling spelling source = .ok id) : id.bare = settle spelling := by
  unfold ofSpelling at h
  unfold settle
  split at h
  · cases h
  · split at h
    · cases h
      rw [if_pos ‹_›]
      rfl
    · rw [if_neg ‹_›]
      split at h <;> cases h <;> rfl

/-- The name of a field, once it is an identifier. -/
def fieldName (name : String) : String :=
  settle (Naming.fieldName name)

def typeName (parts : List String) : String :=
  settle (Words.pascal (joinParts parts))

def functionName (parts : List String) : String :=
  settle (Naming.fieldName (joinParts parts))

def constantName (name : String) : String :=
  settle (Naming.constantName name)

variable {id : Ident}

theorem bare_of_ofField {name : String} (h : ofField name = .ok id) : id.bare = fieldName name :=
  bare_of_ofSpelling h

theorem bare_of_ofType {parts : List String} (h : ofType parts = .ok id) :
    id.bare = typeName parts :=
  bare_of_ofSpelling h

theorem bare_of_ofFunction {parts : List String} (h : ofFunction parts = .ok id) :
    id.bare = functionName parts :=
  bare_of_ofSpelling h

theorem bare_of_ofConstant {name : String} (h : ofConstant name = .ok id) :
    id.bare = constantName name :=
  bare_of_ofSpelling h

end Ident

open Ident

/-! ## The entities of a description -/

/-- The record of a method. -/
def Method.entity (m : Method) : Entity :=
  .record (typeName [m.className, m.name])
    (m.arguments.toList.map fun field => fieldName field.name)

/-- The records of a class: those of its methods, and that of its properties. -/
def Class.entities (c : Class) : List Entity :=
  c.methods.map Method.entity ++
    [.record (typeName [c.name, "properties"])
      (c.properties.toList.map fun field => fieldName field.name)]

/-- The types of a description: the records, and the choices between them. -/
def Description.typeEntities (d : Description) : List Entity :=
  let methods := d.methods.map fun m => typeName [m.className, m.name]
  d.classes.flatMap Class.entities ++
    [.choice "MethodName" methods, .choice "Method" methods,
      .choice "Properties" (d.classes.map fun c => typeName [c.name])]

/-- The tables about methods. -/
def tableFunctions : List String :=
  ["lookup_method_name", "method_id", "method_has_content", "method_fieldnames", "method_record",
    "is_method_synchronous"]

/-- The functions for methods, decoders before encoders. -/
def Description.methodFunctions (d : Description) : List String :=
  tableFunctions ++
    (["decode_method_fields"] ++
      d.methods.map fun m => functionName ["decode", m.className, m.name]) ++
    (["encode_method_fields"] ++
      d.methods.map fun m => functionName ["encode", m.className, m.name])

/-- The functions for properties, those of a class next to each other. -/
def Description.propertyFunctions (d : Description) : List String :=
  ["decode_properties", "encode_properties"] ++ d.classes.flatMap fun c =>
    [functionName ["decode", c.name, "properties"], functionName ["encode", c.name, "properties"]]

/-- The functions for looking things up. -/
def lookupFunctions : List String :=
  ["version", "lookup_class_name", "class_id", "lookup_exception", "exception_code", "exception_name"]

/-- What the code of a description declares. -/
def Description.entities (d : Description) : List Entity :=
  [.constant "VERSION", .constant "PROTOCOL_PORT"] ++
    (d.constants.map fun c => .constant (constantName c.name)) ++
    d.typeEntities ++
    (d.methodFunctions ++ d.propertyFunctions ++ lookupFunctions).map .function

variable {d : Description}

namespace Declarations

theorem entities_of_constants {items : List Item} (h : constants d = .ok items) :
    items.flatMap Item.entities = [.constant "VERSION", .constant "PROTOCOL_PORT"] ++
      d.constants.map fun c => .constant (constantName c.name) := by
  obtain ⟨declared, emitted, same⟩ := Except.bind_eq_ok.mp h
  cases same
  have names : declared.map Item.entities =
      d.constants.map fun c => [.constant (constantName c.name)] := by
    refine Except.map_eq_of_mapM emitted fun c item made => ?_
    obtain ⟨id, named, same⟩ := Except.bind_eq_ok.mp made
    cases same
    rw [Item.entities, bare_of_ofConstant named]
  rw [List.flatMap_append, Item.entities_of_each names]
  rfl

theorem entities_of_methodRecord {m : Method} {items : List Item}
    (h : (methodRecord d m).Yields items) : items.flatMap Item.entities = [m.entity] := by
  obtain ⟨record, named, h⟩ := h.bind
  obtain ⟨arguments, emitted, h⟩ := h.bind
  have fields : arguments.map (fun argument => argument.1.bare) =
      m.arguments.toList.map fun field => fieldName field.name := by
    refine emitted.map_eq fun field argument made => ?_
    obtain ⟨id, named, made⟩ := made.bind
    obtain ⟨ty, -, made⟩ := made.bind
    obtain ⟨init, -, made⟩ := made.bind
    cases made.eq_of_pure
    exact bare_of_ofField named.ofExcept
  have name : record.bare = typeName [m.className, m.name] := bare_of_ofType named.ofExcept
  dsimp only at h
  split at h <;> cases h.eq_of_pure <;>
    simp [Item.entities, defaultImplementation, Method.entity, name, ← fields]

theorem entities_of_propertiesRecord {c : Class} {item : Item}
    (h : (propertiesRecord d c).Yields item) :
    item.entities = [.record (typeName [c.name, "properties"])
      (c.properties.toList.map fun field => fieldName field.name)] := by
  obtain ⟨record, named, h⟩ := h.bind
  obtain ⟨properties, emitted, h⟩ := h.bind
  have fields : properties.map (fun property => property.1.bare) =
      c.properties.toList.map fun field => fieldName field.name := by
    refine emitted.map_eq fun field property made => ?_
    obtain ⟨id, named, made⟩ := made.bind
    obtain ⟨ty, -, made⟩ := made.bind
    cases made.eq_of_pure
    exact bare_of_ofField named.ofExcept
  cases h.eq_of_pure
  rw [Item.entities, fields, bare_of_ofType named.ofExcept]

theorem entities_of_classRecords {c : Class} {items : List Item}
    (h : (classRecords d c).Yields items) : items.flatMap Item.entities = c.entities := by
  obtain ⟨-, -, h⟩ := h.bind
  obtain ⟨methods, emitted, h⟩ := h.bind
  obtain ⟨properties, last, h⟩ := h.bind
  cases h.eq_of_pure
  have records : methods.map (·.flatMap Item.entities) = c.methods.map fun m => [m.entity] :=
    emitted.map_eq fun m items made => entities_of_methodRecord made
  rw [List.flatMap_append, Item.entities_of_groups records, ← List.map_eq_flatMap,
    List.flatMap_singleton, entities_of_propertiesRecord last]
  rfl

theorem entities_of_methodNames {items : List Item} (h : methodNames d = .ok items) :
    items.flatMap Item.entities =
      [.choice "MethodName" (d.methods.map fun m => typeName [m.className, m.name])] := by
  obtain ⟨variants, emitted, same⟩ := Except.bind_eq_ok.mp h
  have names : variants.map (fun variant => variant.1.bare) =
      d.methods.map fun m => typeName [m.className, m.name] := by
    refine Except.map_eq_of_mapM emitted fun m variant made => ?_
    obtain ⟨id, named, same⟩ := Except.bind_eq_ok.mp made
    cases same
    exact bare_of_ofType named
  cases same
  simp [Item.entities, ← names, Ident.bare]

theorem entities_of_recordChoice (line choice question : String) (answer : Tokens)
    (variants : List (Ident × Ident × Tokens)) :
    (recordChoice line choice question answer variants).flatMap Item.entities =
      [.choice choice (variants.map (·.1.bare))] := by
  have conversions : (variants.map fun variant => conversion choice variant.1 variant.2.1).flatMap
      Item.entities = [] := by
    rw [List.flatMap_eq_nil_iff, List.forall_mem_map]
    exact fun _ _ => rfl
  rw [recordChoice, List.flatMap_append, conversions]
  simp [Item.entities, Ident.bare]

theorem entities_of_methodChoice {items : List Item} (h : methodChoice d = .ok items) :
    items.flatMap Item.entities =
      [.choice "Method" (d.methods.map fun m => typeName [m.className, m.name])] := by
  obtain ⟨variants, emitted, same⟩ := Except.bind_eq_ok.mp h
  cases same
  rw [entities_of_recordChoice]
  congr 2
  refine Except.map_eq_of_mapM emitted fun m variant made => ?_
  obtain ⟨id, named, same⟩ := Except.bind_eq_ok.mp made
  cases same
  exact bare_of_ofType named

theorem entities_of_propertiesChoice {items : List Item} (h : propertiesChoice d = .ok items) :
    items.flatMap Item.entities =
      [.choice "Properties" (d.classes.map fun c => typeName [c.name])] := by
  obtain ⟨variants, emitted, same⟩ := Except.bind_eq_ok.mp h
  cases same
  rw [entities_of_recordChoice]
  congr 2
  refine Except.map_eq_of_mapM emitted fun c variant made => ?_
  obtain ⟨id, named, made⟩ := Except.bind_eq_ok.mp made
  obtain ⟨record, -, same⟩ := Except.bind_eq_ok.mp made
  cases same
  exact bare_of_ofType named

theorem entities_of_items {items : List Item} (h : (Declarations.items d).Yields items) :
    items.flatMap Item.entities = [.constant "VERSION", .constant "PROTOCOL_PORT"] ++
      (d.constants.map fun c => .constant (constantName c.name)) ++ d.typeEntities := by
  obtain ⟨constants, declared, h⟩ := h.bind
  obtain ⟨records, emitted, h⟩ := h.bind
  obtain ⟨names, named, h⟩ := h.bind
  obtain ⟨methods, chosen, h⟩ := h.bind
  obtain ⟨properties, chosen', h⟩ := h.bind
  cases h.eq_of_pure
  have classes : records.map (·.flatMap Item.entities) = d.classes.map Class.entities :=
    emitted.map_eq fun c items made => entities_of_classRecords made
  simp only [List.flatMap_append, entities_of_constants declared.ofExcept,
    Item.entities_of_groups classes, entities_of_methodNames named.ofExcept,
    entities_of_methodChoice chosen.ofExcept, entities_of_propertiesChoice chosen'.ofExcept,
    Description.typeEntities, List.append_assoc, List.cons_append, List.nil_append]

end Declarations

namespace EncoderCode

theorem entities_item (code : EncoderCode) :
    code.item.entities = [.function code.function.bare] := by
  unfold item
  split <;> rfl

end EncoderCode

namespace PropertyEncoderCode

theorem entities_item (code : PropertyEncoderCode) :
    code.item.entities = [.function code.function.bare] := by
  unfold item
  split <;> rfl

end PropertyEncoderCode

namespace MethodCode

theorem entities_of_decoder {m : Method} {code : DecoderCode} (h : (decoder d m).Yields code) :
    code.item.entities = [.function (functionName ["decode", m.className, m.name])] := by
  obtain ⟨-, -, h⟩ := h.bind
  obtain ⟨record, -, h⟩ := h.bind
  obtain ⟨function, named, h⟩ := h.bind
  obtain ⟨chunks, -, h⟩ := h.bind
  obtain ⟨fields, -, same⟩ := Except.bind_eq_ok.mp h.ofExcept
  cases same
  exact congrArg (fun name => [Entity.function name]) (bare_of_ofFunction named.ofExcept)

theorem entities_of_encoder {m : Method} {code : EncoderCode} (h : encoder d m = .ok code) :
    code.item.entities = [.function (functionName ["encode", m.className, m.name])] := by
  obtain ⟨record, -, h⟩ := Except.bind_eq_ok.mp h
  obtain ⟨function, named, h⟩ := Except.bind_eq_ok.mp h
  obtain ⟨chunks, -, h⟩ := Except.bind_eq_ok.mp h
  obtain ⟨writes, -, same⟩ := Except.bind_eq_ok.mp h
  cases same
  rw [EncoderCode.entities_item, bare_of_ofFunction named]

theorem entities_of_items {items : List Item} (h : (MethodCode.items d).Yields items) :
    items.flatMap Item.entities = d.methodFunctions.map .function := by
  obtain ⟨tables, tabulated, h⟩ := h.bind
  obtain ⟨decoders, decoded, h⟩ := h.bind
  obtain ⟨encoders, encoded, h⟩ := h.bind
  cases h.eq_of_pure
  have fixed : tables.flatMap Item.entities = tableFunctions.map .function := by
    obtain ⟨entries, -, same⟩ := Except.bind_eq_ok.mp tabulated.ofExcept
    cases same
    rfl
  have decoding : (decoders.map (·.item)).map Item.entities =
      d.methods.map fun m => [.function (functionName ["decode", m.className, m.name])] := by
    rw [List.map_map]
    exact decoded.map_eq fun m code made => entities_of_decoder made
  have encoding : (encoders.map (·.item)).map Item.entities =
      d.methods.map fun m => [.function (functionName ["encode", m.className, m.name])] := by
    rw [List.map_map]
    exact Except.map_eq_of_mapM encoded.ofExcept fun m code made => entities_of_encoder made
  simp only [List.flatMap_append, fixed, Item.entities_of_each decoding,
    Item.entities_of_each encoding, Description.methodFunctions, List.map_append, List.map_map,
    List.append_assoc]
  rfl

end MethodCode

namespace PropertyCode

theorem entities_of_entry {c : Class} {e : Entry} (h : (entry d c).Yields e) :
    [e.decoder.item, e.encoder.item].flatMap Item.entities =
      [functionName ["decode", c.name, "properties"],
        functionName ["encode", c.name, "properties"]].map .function := by
  obtain ⟨-, -, h⟩ := h.bind
  obtain ⟨id, -, h⟩ := h.bind
  obtain ⟨record, -, h⟩ := h.bind
  obtain ⟨decode, named, h⟩ := h.bind
  obtain ⟨encode, named', h⟩ := h.bind
  obtain ⟨decoder, decoded, h⟩ := h.bind
  obtain ⟨encoder, encoded, h⟩ := h.bind
  cases h.eq_of_pure
  obtain ⟨reads, -, same⟩ := Except.bind_eq_ok.mp decoded.ofExcept
  cases same
  obtain ⟨writes, -, same⟩ := Except.bind_eq_ok.mp encoded.ofExcept
  cases same
  rw [List.flatMap_cons, List.flatMap_singleton, PropertyEncoderCode.entities_item,
    bare_of_ofFunction named'.ofExcept]
  exact congrArg (fun name => [Entity.function name] ++ _) (bare_of_ofFunction named.ofExcept)

theorem entities_of_items {items : List Item} (h : (PropertyCode.items d).Yields items) :
    items.flatMap Item.entities = d.propertyFunctions.map .function := by
  obtain ⟨entries, emitted, h⟩ := h.bind
  cases h.eq_of_pure
  have functions : entries.map (fun e => [e.decoder.item, e.encoder.item].flatMap Item.entities) =
      d.classes.map fun c => [functionName ["decode", c.name, "properties"],
        functionName ["encode", c.name, "properties"]].map .function :=
    emitted.map_eq fun c e made => entities_of_entry made
  rw [List.flatMap_append, List.flatMap_assoc, List.flatMap_def (l := entries), functions,
    ← List.flatMap_def, ← List.map_flatMap, Description.propertyFunctions, List.map_append]
  rfl

end PropertyCode

theorem LookupCode.entities_of_items {items : List Item} (h : LookupCode.items d = .ok items) :
    items.flatMap Item.entities = lookupFunctions.map .function := by
  obtain ⟨table, -, same⟩ := Except.bind_eq_ok.mp h
  cases same
  rfl

/-- The program of a description declares the entities of the description. -/
theorem Program.entities_of_yields {program : Program}
    (h : (Program.ofDescription d).Yields program) : program.entities = d.entities := by
  obtain ⟨declarations, declared, h⟩ := h.bind
  obtain ⟨methods, coded, h⟩ := h.bind
  obtain ⟨properties, coded', h⟩ := h.bind
  obtain ⟨lookups, found, h⟩ := h.bind
  cases h.eq_of_pure
  simp only [entities, List.flatMap_append, Declarations.entities_of_items declared,
    MethodCode.entities_of_items coded, PropertyCode.entities_of_items coded',
    LookupCode.entities_of_items found.ofExcept, Description.entities, List.map_append]

end WireProtocol
