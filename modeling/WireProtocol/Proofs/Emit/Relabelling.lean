import WireProtocol.Emit.Generate
import WireProtocol.Proofs.Description.Relabelling

/-!
# Code does not depend on the spelling of domains

One lemma for each function that makes code: what it makes of a relabelled part of a description is what
it makes of the part itself. Where it makes something that still holds fields, these are relabelled.

* `Declarations.items_relabel`, `MethodCode.items_relabel`, `PropertyCode.items_relabel`,
  `LookupCode.items_relabel`: the items of a description.
* `Relabels.generate_eq`: its files, and what is reported.
-/

namespace WireProtocol

variable {domain : Field → String} {d d' : Description}

/-! ## Declarations -/

namespace Declarations

theorem constants_relabel (h : Relabels domain d d') : constants d' = constants d := by
  rw [constants, constants, h.version, h.port, h.constants]

theorem argument_relabel {owner : String} {field : Field}
    (same : d'.fieldType (field.relabel domain) = d.fieldType field) :
    argument d' owner (field.relabel domain) = argument d owner field := by
  rw [argument, argument, same]
  rfl

theorem methodRecord_relabel {m : Method} (same : SameTypes domain d d' m.arguments) :
    methodRecord d' (m.relabel domain) = methodRecord d m := by
  have arguments : (m.relabel domain).arguments.toList.mapM
      (argument d' (m.relabel domain).qualifiedName) =
        m.arguments.toList.mapM (argument d m.qualifiedName) :=
    List.mapM_map_of_eq fun field inside => argument_relabel (same field inside)
  have defaults : (m.relabel domain).arguments.toList.any (·.default.isSome) =
      m.arguments.toList.any (·.default.isSome) := List.any_map
  rw [methodRecord, methodRecord, arguments, defaults]
  rfl

theorem property_relabel {field : Field}
    (same : d'.fieldType (field.relabel domain) = d.fieldType field) :
    property d' (field.relabel domain) = property d field := by
  rw [property, property, same]
  rfl

theorem propertiesRecord_relabel {c : Class} (same : SameTypes domain d d' c.properties) :
    propertiesRecord d' (c.relabel domain) = propertiesRecord d c := by
  have properties : (c.relabel domain).properties.toList.mapM (property d') =
      c.properties.toList.mapM (property d) :=
    List.mapM_map_of_eq fun field inside => property_relabel (same field inside)
  rw [propertiesRecord, propertiesRecord, properties]
  rfl

theorem classRecords_relabel {c : Class} (same : SameTypes domain d d' c.properties)
    (each : ∀ m ∈ c.methods, SameTypes domain d d' m.arguments) :
    classRecords d' (c.relabel domain) = classRecords d c := by
  have methods : (c.relabel domain).methods.mapM (methodRecord d') = c.methods.mapM (methodRecord d) :=
    List.mapM_map_of_eq fun m inside => methodRecord_relabel (each m inside)
  have count : (c.relabel domain).methods.length = c.methods.length := List.length_map _
  rw [classRecords, classRecords, methods, count, propertiesRecord_relabel same]
  rfl

theorem methodNames_relabel (h : Relabels domain d d') : methodNames d' = methodNames d := by
  rw [methodNames, methodNames, h.methods, List.mapM_map_of_eq fun _ _ => rfl]
  rfl

theorem methodChoice_relabel (h : Relabels domain d d') : methodChoice d' = methodChoice d := by
  rw [methodChoice, methodChoice, h.methods, List.mapM_map_of_eq fun _ _ => rfl]
  rfl

theorem propertiesChoice_relabel (h : Relabels domain d d') :
    propertiesChoice d' = propertiesChoice d := by
  rw [propertiesChoice, propertiesChoice, h.classes, List.mapM_map_of_eq fun _ _ => rfl]
  rfl

theorem items_relabel (h : Relabels domain d d') : items d' = items d := by
  have records : d'.classes.mapM (classRecords d') = d.classes.mapM (classRecords d) := by
    rw [h.classes]
    refine List.mapM_map_of_eq fun c inside => classRecords_relabel (h.properties c inside) ?_
    exact fun m own => h.arguments m (List.mem_flatMap.mpr ⟨c, inside, own⟩)
  rw [items, items, constants_relabel h, records, methodNames_relabel h, methodChoice_relabel h,
    propertiesChoice_relabel h]

end Declarations

/-! ## Code for methods -/

theorem Gen.ofExcept_map {α β : Type} (f : α → β) (result : Except GenerateError α) :
    Gen.ofExcept (f <$> result) = f <$> Gen.ofExcept result := by
  cases result <;> rfl

theorem groupStart_relabel (members : List Field) :
    groupStart (members.map (Field.relabel domain)) = groupStart members := by
  cases members <;> rfl

theorem DecoderCode.readOf_relabel (chunk : Chunk Field) :
    readOf (chunk.map (Field.relabel domain)) = readOf chunk := by
  cases chunk with
  | fixedWidth | variableWidth => rfl
  | bits members => rw [Chunk.map, readOf, readOf, groupStart_relabel]

theorem DecoderCode.checksOf_relabel (hasContent : Bool) (chunk : Chunk Field) :
    checksOf hasContent (chunk.map (Field.relabel domain)) = checksOf hasContent chunk := by
  cases chunk with
  | fixedWidth | variableWidth => rfl
  | bits members =>
    rw [Chunk.map, checksOf, checksOf, groupStart_relabel, List.zipIdx_map, List.map_map]
    rfl

theorem DecoderCode.ofMethod_relabel (m : Method) (function record : Ident)
    (chunks : List (Chunk Field)) :
    ofMethod (m.relabel domain) function record (chunks.map (Chunk.map (Field.relabel domain))) =
      ofMethod m function record chunks := by
  have fields : (m.relabel domain).arguments.toList.mapM (m := Except GenerateError)
      (fun field => return (← Ident.ofField field.name, field.local)) =
        m.arguments.toList.mapM fun field => return (← Ident.ofField field.name, field.local) :=
    List.mapM_map_of_eq fun _ _ => rfl
  rw [ofMethod, ofMethod, fields, List.map_map, List.flatMap_map]
  simp only [Function.comp_def, readOf_relabel, checksOf_relabel]
  rfl

theorem EncoderCode.writeOf_relabel (chunk : Chunk Field) :
    writeOf (chunk.map (Field.relabel domain)) = writeOf chunk := by
  cases chunk with
  | fixedWidth | variableWidth => rfl
  | bits members =>
    rw [Chunk.map, writeOf, writeOf, List.mapM_map_of_eq fun _ _ => rfl]
    rfl

theorem EncoderCode.ofChunks_relabel (function record : Ident) (chunks : List (Chunk Field)) :
    ofChunks function record (chunks.map (Chunk.map (Field.relabel domain))) =
      ofChunks function record chunks := by
  rw [ofChunks, ofChunks, List.mapM_map_of_eq fun chunk _ => writeOf_relabel chunk]

namespace MethodCode

theorem noWait?_relabel {fields : List Field}
    (same : ∀ field ∈ fields, d'.fieldType (field.relabel domain) = d.fieldType field) :
    noWait? d' (fields.map (Field.relabel domain)) =
      Option.map (Field.relabel domain) <$> noWait? d fields := by
  induction fields with
  | nil => rfl
  | cons field fields ih =>
    rw [List.forall_mem_cons] at same
    rw [List.map_cons, noWait?, noWait?, ih same.2, same.1]
    rw [Field.name_relabel]
    cases Naming.isNoWait field.name with
    | false => rfl
    | true =>
      cases d.fieldType field with
      | error e => rfl
      | ok ty => cases ty <;> rfl

/-- What the tables say about a method, with the arguments of the method in other domains. -/
def Entry.relabel (domain : Field → String) (e : Entry) : Entry :=
  { e with method := e.method.relabel domain }

theorem synchronousArm_relabel {m : Method} (id : Ident) (same : SameTypes domain d d' m.arguments) :
    synchronousArm d' (m.relabel domain) id = synchronousArm d m id := by
  have overriding : noWait? d' (m.relabel domain).arguments.toList =
      Option.map (Field.relabel domain) <$> noWait? d m.arguments.toList := noWait?_relabel same
  have flag : (m.relabel domain).synchronous = m.synchronous := rfl
  rw [synchronousArm, synchronousArm, overriding, flag]
  cases m.synchronous with
  | false => rfl
  | true =>
    cases noWait? d m.arguments.toList with
    | error e => rfl
    | ok found => cases found <;> rfl

theorem entry_relabel {m : Method} (same : SameTypes domain d d' m.arguments) :
    entry d' (m.relabel domain) = Entry.relabel domain <$> entry d m := by
  have name : (m.relabel domain).typeIdent = m.typeIdent := rfl
  simp only [entry, name, synchronousArm_relabel _ same, map_bind, map_pure]
  rfl

theorem fieldNamesTokens_relabel (e : Entry) :
    fieldNamesTokens (e.relabel domain).method = fieldNamesTokens e.method := by
  have names : (e.relabel domain).method.arguments.toList.map
      (fun field => Literal.text (Naming.fieldName field.name)) =
        e.method.arguments.toList.map fun field => Literal.text (Naming.fieldName field.name) :=
    List.map_map
  rw [fieldNamesTokens, fieldNamesTokens, names]

theorem tables_relabel (h : Relabels domain d d') : tables d' = tables d := by
  rw [tables, tables, h.methods,
    List.mapM_map_of_map fun m inside => entry_relabel (h.arguments m inside)]
  simp only [bind_map_left, List.map_map, Function.comp_def, fieldNamesTokens_relabel]
  rfl

theorem chunks_relabel {m : Method} (same : SameTypes domain d d' m.arguments) :
    chunks d' (m.relabel domain) = List.map (Chunk.map (Field.relabel domain)) <$> chunks d m := by
  have packed : d'.packFields (m.relabel domain).arguments =
      List.map (Chunk.map (Field.relabel domain)) <$> d.packFields m.arguments := packFields_relabel same
  rw [chunks, chunks, packed]
  cases d.packFields m.arguments <;> rfl

theorem decoder_relabel {m : Method} (same : SameTypes domain d d' m.arguments) :
    decoder d' (m.relabel domain) = decoder d m := by
  rw [decoder, decoder, chunks_relabel same]
  simp only [Gen.ofExcept_map, bind_map_left, DecoderCode.ofMethod_relabel]
  rfl

theorem encoder_relabel {m : Method} (same : SameTypes domain d d' m.arguments) :
    encoder d' (m.relabel domain) = encoder d m := by
  rw [encoder, encoder, chunks_relabel same]
  simp only [bind_map_left, EncoderCode.ofChunks_relabel]
  rfl

theorem items_relabel (h : Relabels domain d d') : items d' = items d := by
  rw [items, items, tables_relabel h, h.methods,
    List.mapM_map_of_eq fun m inside => decoder_relabel (h.arguments m inside),
    List.mapM_map_of_eq fun m inside => encoder_relabel (h.arguments m inside)]

end MethodCode

/-! ## Code for properties -/

theorem PropertyDecoderCode.readOf_relabel {field : Field}
    (same : d'.fieldType (field.relabel domain) = d.fieldType field) :
    readOf d' (field.relabel domain) = readOf d field := by
  rw [readOf, readOf, same]
  rfl

theorem PropertyDecoderCode.ofClass_relabel {c : Class} (function record : Ident)
    (same : SameTypes domain d d' c.properties) :
    ofClass d' (c.relabel domain) function record = ofClass d c function record := by
  have reads : (c.relabel domain).properties.toList.mapM (readOf d') =
      c.properties.toList.mapM (readOf d) :=
    List.mapM_map_of_eq fun field inside => readOf_relabel (same field inside)
  rw [ofClass, ofClass, reads]
  rfl

theorem PropertyEncoderCode.writeOf_relabel {field : Field}
    (same : d'.fieldType (field.relabel domain) = d.fieldType field) :
    writeOf d' (field.relabel domain) = writeOf d field := by
  rw [writeOf, writeOf, same]
  rfl

theorem PropertyEncoderCode.ofClass_relabel {c : Class} (function record : Ident)
    (same : SameTypes domain d d' c.properties) :
    ofClass d' (c.relabel domain) function record = ofClass d c function record := by
  have writes : (c.relabel domain).properties.toList.mapM (writeOf d') =
      c.properties.toList.mapM (writeOf d) :=
    List.mapM_map_of_eq fun field inside => writeOf_relabel (same field inside)
  rw [ofClass, ofClass, writes]

namespace PropertyCode

theorem entry_relabel {c : Class} (same : SameTypes domain d d' c.properties) :
    entry d' (c.relabel domain) = entry d c := by
  have count : (c.relabel domain).properties.length = c.properties.length := List.length_map _
  rw [entry, entry, count]
  simp only [PropertyDecoderCode.ofClass_relabel _ _ same, PropertyEncoderCode.ofClass_relabel _ _ same]
  rfl

theorem items_relabel (h : Relabels domain d d') : items d' = items d := by
  rw [items, items, h.classes,
    List.mapM_map_of_eq fun c inside => entry_relabel (h.properties c inside)]

end PropertyCode

/-! ## All code -/

theorem LookupCode.items_relabel (h : Relabels domain d d') : items d' = items d := by
  have grouped : classes d' = classes d := by
    rw [classes, classes, h.classes]
    simp only [List.map_map, Function.comp_def]
    rfl
  rw [items, items, h.constants, grouped]

/-- Code does not depend on the spelling of domains. -/
theorem Relabels.generate_eq (h : Relabels domain d d') (grammar : PathGrammar) (config : Config) :
    generate grammar d' config = generate grammar d config := by
  have program : Program.ofDescription d' = Program.ofDescription d := by
    rw [Program.ofDescription, Program.ofDescription, Declarations.items_relabel h,
      MethodCode.items_relabel h, PropertyCode.items_relabel h, LookupCode.items_relabel h]
  have classes : d'.classes.length = d.classes.length := by
    rw [h.classes, List.length_map]
  rw [generate, generate, generateSteps, generateSteps, program, classes, h.version, h.constants]

end WireProtocol
