import WireProtocol.Proofs.Config.RuntimePath
import WireProtocol.Proofs.Emit.Conditions
import WireProtocol.Proofs.Emit.Yields
import WireProtocol.Proofs.Layout.Chunk

/-!
# The first condition that is not met

* `Gen.Ends`: a generation ends with an error, or with a value where there is none.
* `Gen.Ends.bind`, `Gen.Ends.mapM`: the error is that of the first step that has one.
* `generate_reports_first_failure`: a generation ends with the error of the first condition that is
  not met, and with its files if all are.

Many steps depend again on what an earlier one has already depended on. Such a step has no error of
its own.
-/

namespace WireProtocol

namespace Gen

variable {α β : Type} {first second : Option GenerateError}

/-- The generation ends with the error, or with a value where there is none, whatever has been
reported before. -/
def Ends (gen : Gen α) (first : Option GenerateError) : Prop :=
  ∀ events, (ExceptT.run gen events).1.Ends first

namespace Ends

theorem pure (value : α) : (Pure.pure value : Gen α).Ends none :=
  fun _ => .value rfl

theorem report (event : Event) : (Gen.report event).Ends none :=
  fun _ => .value rfl

theorem ofExcept {result : Except GenerateError α} (h : result.Ends first) :
    (Gen.ofExcept result).Ends first :=
  fun _ => h

/-- A step that yields a value has no error. -/
theorem eq_none {step : Gen α} {value : α} (h : step.Ends first) (yields : step.Yields value) :
    first = none := by
  obtain ⟨events, events', ran⟩ := yields
  exact (h events).exists_ok_iff.mp ⟨value, congrArg Prod.fst ran⟩

/-- The second of two steps decides where the first has no error. -/
theorem bind {step : Gen α} {next : α → Gen β} (h : step.Ends first)
    (others : ∀ value, step.Yields value → (next value).Ends second) :
    (step >>= next).Ends (first.or second) := by
  intro events
  rw [ExceptT.run_bind_state]
  have here := h events
  cases ran : ExceptT.run step events with
  | mk outcome between =>
    rw [ran] at here
    cases outcome with
    | ok value =>
      have yields : step.Yields value := ⟨events, between, ran⟩
      rw [h.eq_none yields]
      exact others value yields between
    | error e =>
      cases here with
      | value same => cases same
      | error same =>
        cases same
        exact .error rfl

/-- A step without an error leaves the decision to those behind it. -/
theorem next {step : Gen α} {next : α → Gen β} (h : step.Ends none)
    (others : ∀ value, step.Yields value → (next value).Ends second) :
    (step >>= next).Ends second :=
  h.bind others

/-- A step decides where those behind it have no error. -/
theorem last {step : Gen α} {next : α → Gen β} (h : step.Ends first)
    (others : ∀ value, step.Yields value → (next value).Ends none) : (step >>= next).Ends first := by
  have ends := h.bind others
  rwa [Option.or_none] at ends

/-- Of steps for each member of a list, the first that has an error decides. -/
theorem mapM {step : α → Gen β} {failure : α → Option GenerateError} {xs : List α}
    (h : ∀ x ∈ xs, (step x).Ends (failure x)) : (xs.mapM step).Ends (xs.findSome? failure) := by
  induction xs with
  | nil => exact pure []
  | cons x xs ih =>
    rw [List.forall_mem_cons] at h
    rw [List.mapM_cons, List.findSome?_cons_eq_or]
    exact h.1.bind fun y _ => (ih h.2).last fun ys _ => pure (y :: ys)

end Ends

end Gen

variable {grammar : PathGrammar} {d : Description} {config : Config}

open Condition

/-! ## Steps that depend on conditions -/

/-- A step that depends on a condition that is met has no error. -/
theorem Condition.Holds.ends {α : Type} {x : Except GenerateError α} {condition : Condition}
    (met : condition.Holds grammar d config) (h : x.Ends (condition.failure? grammar d config)) : x.Ends none := by
  rwa [failure?_eq_none_iff.mpr met] at h

theorem Ident.ofSpelling_ends (spelling source : String) :
    (Ident.ofSpelling spelling source).Ends ((Condition.name spelling source).failure? grammar d config) := by
  rw [failure?, Ident.ofSpelling]
  by_cases valid : Ident.isName spelling
  · rw [if_pos valid, if_neg (by simpa using valid)]
    split
    · exact .value rfl
    · split <;> exact .value rfl
  · rw [if_neg valid, if_pos (by simpa using valid)]
    exact .error rfl

theorem Ident.ofConstant_ends (c : Constant) :
    (Ident.ofConstant c.name).Ends ((Condition.constantName c).failure? grammar d config) :=
  ofSpelling_ends _ _

theorem Ident.ofField_ends (field : Field) :
    (Ident.ofField field.name).Ends ((Condition.fieldName field).failure? grammar d config) :=
  ofSpelling_ends _ _

theorem Ident.ofType_ends (parts : List String) :
    (Ident.ofType parts).Ends ((Condition.typeName parts).failure? grammar d config) :=
  ofSpelling_ends _ _

theorem Ident.ofFunction_ends (parts : List String) :
    (Ident.ofFunction parts).Ends ((Condition.functionName parts).failure? grammar d config) :=
  ofSpelling_ends _ _

theorem Description.fieldType_ends (d : Description) (field : Field) :
    ((d.fieldType field).mapError GenerateError.description).Ends
      ((Condition.domain field).failure? grammar d config) := by
  rw [failure?, Description.fieldType, Description.resolve]
  cases WireType.ofName? (d.target field.domain) with
  | none => exact .error rfl
  | some ty => exact .value rfl

namespace Declarations

theorem constants_ends (d : Description) :
    (constants d).Ends (first? grammar d config (d.constants.map constantName)) := by
  rw [first?_map]
  refine (Except.Ends.mapM fun c _ => ?_).last fun _ _ => .value rfl
  exact (Ident.ofConstant_ends c).last fun _ _ => .value rfl

theorem defaultTokens_ends {owner : String} {field : Field} {ty : WireType}
    (known : d.fieldType field = .ok ty) :
    (defaultTokens owner field ty).Ends
      (first? grammar d config (field.default.toList.map (fit owner field))) := by
  rw [first?_map, defaultTokens]
  cases field.default with
  | none => exact .value rfl
  | some default =>
    simp only [Option.toList_some, List.findSome?_singleton, failure?,
      Description.fieldType_eq_ok.mp known]
    cases WireValue.ofDefault? ty default with
    | none => exact .error rfl
    | some value => exact .value rfl

theorem argument_ends (owner : String) (field : Field) :
    (argument d owner field).Ends (first? grammar d config (ofArgument owner field)) := by
  rw [argument, ofArgument, first?_cons, first?_cons]
  refine (Gen.Ends.ofExcept (Ident.ofField_ends field)).bind fun id _ => ?_
  refine (Gen.Ends.ofExcept (d.fieldType_ends field)).bind fun ty asked => ?_
  exact (Gen.Ends.ofExcept (defaultTokens_ends asked.ask)).last fun init _ => Gen.Ends.pure _

theorem methodRecord_ends (m : Method) :
    (methodRecord d m).Ends (first? grammar d config (ofMethod m)) := by
  rw [methodRecord, ofMethod, first?_cons, first?_flatMap]
  refine (Gen.Ends.ofExcept (Ident.ofType_ends _)).bind fun record _ => ?_
  refine (Gen.Ends.mapM fun field _ => argument_ends m.qualifiedName field).last fun arguments _ => ?_
  split <;> exact Gen.Ends.pure _

theorem property_ends (field : Field) :
    (property d field).Ends (first? grammar d config (ofProperty field)) := by
  rw [property, ofProperty, first?_cons, first?_cons]
  refine (Gen.Ends.ofExcept (Ident.ofField_ends field)).bind fun id _ => ?_
  exact (Gen.Ends.ofExcept (d.fieldType_ends field)).bind fun ty _ => Gen.Ends.pure _

theorem propertiesRecord_ends (c : Class) :
    (propertiesRecord d c).Ends (first? grammar d config (ofProperties c)) := by
  rw [propertiesRecord, ofProperties, first?_cons, first?_flatMap]
  refine (Gen.Ends.ofExcept (Ident.ofType_ends _)).bind fun record _ => ?_
  exact (Gen.Ends.mapM fun field _ => property_ends field).last fun fields _ => Gen.Ends.pure _

theorem classRecords_ends (c : Class) :
    (classRecords d c).Ends (first? grammar d config (ofClass c)) := by
  rw [classRecords, ofClass, first?_append, first?_flatMap]
  refine (Gen.Ends.report _).next fun _ _ => ?_
  refine (Gen.Ends.mapM fun m _ => methodRecord_ends m).bind fun methods _ => ?_
  exact (propertiesRecord_ends c).last fun properties _ => Gen.Ends.pure _

end Declarations

/-! ## Steps that come again -/

/-- What is asked again once all records have been declared is met. -/
structure RecordsMet (grammar : PathGrammar) (d : Description) (config : Config) : Prop where
  method : ∀ m ∈ d.methods, ∀ condition ∈ ofMethod m, condition.Holds grammar d config
  properties : ∀ c ∈ d.classes, ∀ condition ∈ ofProperties c, condition.Holds grammar d config

namespace RecordsMet

variable {m : Method} {c : Class} {field : Field}

theorem of_ofClass
    (met : ∀ condition ∈ d.classes.flatMap ofClass, condition.Holds grammar d config) :
    RecordsMet grammar d config := by
  constructor
  · intro m member condition inside
    obtain ⟨c, listed, own⟩ := List.mem_flatMap.mp member
    exact met condition (List.mem_flatMap.mpr ⟨c, listed,
      List.mem_append_left _ (List.mem_flatMap.mpr ⟨m, own, inside⟩)⟩)
  · intro c listed condition inside
    exact met condition (List.mem_flatMap.mpr ⟨c, listed, List.mem_append_right _ inside⟩)

/-- The name and the type of a field are asked for again, whatever else it has to be like. -/
theorem named_and_typed {others : List Condition}
    (met : ∀ condition ∈ fieldName field :: .domain field :: others, condition.Holds grammar d config) :
    (Ident.ofField field.name).Ends none ∧
      ((d.fieldType field).mapError GenerateError.description).Ends none := by
  rw [List.forall_mem_cons, List.forall_mem_cons] at met
  exact ⟨met.1.ends (Ident.ofField_ends field), met.2.1.ends (d.fieldType_ends field)⟩

theorem typeIdent (met : RecordsMet grammar d config) (member : m ∈ d.methods) : m.typeIdent.Ends none :=
  (met.method m member _ List.mem_cons_self).ends (Ident.ofType_ends _)

theorem argument (met : RecordsMet grammar d config) (member : m ∈ d.methods)
    (inside : field ∈ m.arguments.toList) : (Ident.ofField field.name).Ends none ∧
      ((d.fieldType field).mapError GenerateError.description).Ends none :=
  named_and_typed fun condition own => met.method m member condition
    (List.mem_cons_of_mem _ (List.mem_flatMap.mpr ⟨field, inside, own⟩))

theorem propertiesIdent (met : RecordsMet grammar d config) (member : c ∈ d.classes) :
    c.propertiesIdent.Ends none :=
  (met.properties c member _ List.mem_cons_self).ends (Ident.ofType_ends _)

theorem property (met : RecordsMet grammar d config) (member : c ∈ d.classes)
    (inside : field ∈ c.properties.toList) : (Ident.ofField field.name).Ends none ∧
      ((d.fieldType field).mapError GenerateError.description).Ends none :=
  named_and_typed fun condition own => met.properties c member condition
    (List.mem_cons_of_mem _ (List.mem_flatMap.mpr ⟨field, inside, own⟩))

end RecordsMet

namespace Declarations

theorem methodNames_ends (met : RecordsMet grammar d config) : (methodNames d).Ends none := by
  refine (Except.Ends.mapM_none fun m member => ?_).last fun _ _ => .value rfl
  exact (met.typeIdent member).last fun _ _ => .value rfl

theorem methodChoice_ends (met : RecordsMet grammar d config) : (methodChoice d).Ends none := by
  refine (Except.Ends.mapM_none fun m member => ?_).last fun _ _ => .value rfl
  exact (met.typeIdent member).last fun _ _ => .value rfl

theorem propertiesChoice_ends (met : RecordsMet grammar d config) :
    (propertiesChoice d).Ends (first? grammar d config (d.classes.map fun c => typeName [c.name])) := by
  rw [first?_map]
  refine (Except.Ends.mapM fun c member => ?_).last fun _ _ => .value rfl
  refine (Ident.ofType_ends [c.name]).last fun _ _ => ?_
  exact (met.propertiesIdent member).last fun _ _ => .value rfl

/-- The declarations depend on the constants, the records and the names of the classes. -/
theorem items_ends (d : Description) :
    (items d).Ends (first? grammar d config (ofDeclarations d)) := by
  rw [items, ofDeclarations, first?_append, first?_append]
  refine (Gen.Ends.ofExcept (constants_ends d)).bind fun constants _ => ?_
  have emitted : (d.classes.mapM (classRecords d)).Ends
      (first? grammar d config (d.classes.flatMap ofClass)) := by
    rw [first?_flatMap]
    exact Gen.Ends.mapM fun c _ => classRecords_ends c
  refine emitted.bind fun records yields => ?_
  have met : RecordsMet grammar d config := .of_ofClass (first?_eq_none_iff.mp (emitted.eq_none yields))
  refine (Gen.Ends.ofExcept (methodNames_ends met)).next fun methodNames _ => ?_
  refine (Gen.Ends.ofExcept (methodChoice_ends met)).next fun methodChoice _ => ?_
  exact (Gen.Ends.ofExcept (propertiesChoice_ends met)).last fun _ _ => Gen.Ends.pure _

end Declarations

namespace MethodCode

theorem noWait?_ends {fields : List Field}
    (resolved : ∀ field ∈ fields, ((d.fieldType field).mapError GenerateError.description).Ends none) :
    (noWait? d fields).Ends none := by
  induction fields with
  | nil => exact .value rfl
  | cons field fields ih =>
    rw [List.forall_mem_cons] at resolved
    rw [noWait?]
    split
    · refine resolved.1.next fun ty _ => ?_
      split
      · exact .value rfl
      · exact ih resolved.2
    · exact ih resolved.2

theorem mem_of_noWait? {fields : List Field} {field : Field}
    (found : noWait? d fields = .ok (some field)) : field ∈ fields := by
  induction fields with
  | nil => cases found
  | cons first fields ih =>
    rw [noWait?] at found
    split at found
    · obtain ⟨ty, -, found⟩ := Except.bind_eq_ok.mp found
      split at found
      · cases found
        exact List.mem_cons_self
      · exact List.mem_cons_of_mem _ (ih found)
    · exact List.mem_cons_of_mem _ (ih found)

theorem synchronousArm_ends (met : RecordsMet grammar d config) {m : Method} (member : m ∈ d.methods)
    (id : Ident) : (synchronousArm d m id).Ends none := by
  rw [synchronousArm]
  split
  · have asked := noWait?_ends fun field inside => (met.argument member inside).2
    refine asked.next fun overriding found => ?_
    cases overriding with
    | none => exact .value rfl
    | some field =>
      exact (met.argument member (mem_of_noWait? found)).1.last fun _ _ => .value rfl
  · exact .value rfl

theorem tables_ends (met : RecordsMet grammar d config) : (tables d).Ends none := by
  refine (Except.Ends.mapM_none fun m member => ?_).last fun _ _ => .value rfl
  exact (met.typeIdent member).last fun id _ => (synchronousArm_ends met member id).last
    fun _ _ => .value rfl

/-- The chunks of a method consist of its arguments. -/
theorem exists_chunks (met : RecordsMet grammar d config) {m : Method} (member : m ∈ d.methods) :
    ∃ packed, chunks d m = .ok packed ∧
      ∀ chunk ∈ packed, ∀ field ∈ chunk.values, field ∈ m.arguments.toList := by
  have resolves : ∀ field ∈ m.arguments.toList, d.Resolves field := by
    intro field inside
    obtain ⟨ty, known⟩ := (met.argument member inside).2.exists_ok
    cases asked : d.fieldType field with
    | ok ty' => exact ⟨ty', asked⟩
    | error e =>
      rw [asked] at known
      cases known
  obtain ⟨arguments, classified⟩ := Description.exists_classify_eq_ok.mpr resolves
  refine ⟨coalesce arguments, ?_, fun chunk listed field inside => ?_⟩
  · rw [chunks, Description.packFields, classified]
    rfl
  · rw [← (Description.classify_eq_ok.mp classified).1, ← coalesce_members arguments,
      ← Chunk.flatMap_values]
    exact List.mem_flatMap.mpr ⟨chunk, listed, inside⟩

theorem decoder_ends (met : RecordsMet grammar d config) {m : Method} (member : m ∈ d.methods) :
    (decoder d m).Ends ((functionName ["decode", m.className, m.name]).failure? grammar d config) := by
  rw [decoder]
  refine (Gen.Ends.report _).next fun _ _ => ?_
  refine (Gen.Ends.ofExcept (met.typeIdent member)).next fun record _ => ?_
  refine (Gen.Ends.ofExcept (Ident.ofFunction_ends _)).last fun function _ => ?_
  obtain ⟨packed, found, -⟩ := exists_chunks met member
  refine (Gen.Ends.ofExcept (.value found)).next fun chunks _ => ?_
  rw [DecoderCode.ofMethod]
  refine Gen.Ends.ofExcept ((Except.Ends.mapM_none fun field inside => ?_).last fun _ _ => .value rfl)
  exact (met.argument member inside).1.last fun _ _ => .value rfl

theorem encoder_ends (met : RecordsMet grammar d config) {m : Method} (member : m ∈ d.methods) :
    (encoder d m).Ends ((functionName ["encode", m.className, m.name]).failure? grammar d config) := by
  rw [encoder]
  refine (met.typeIdent member).next fun record _ => ?_
  refine (Ident.ofFunction_ends _).last fun function _ => ?_
  obtain ⟨packed, found, inside⟩ := exists_chunks met member
  refine (Except.Ends.value found).next fun packed' found' => ?_
  cases found.symm.trans found'
  rw [EncoderCode.ofChunks]
  refine (Except.Ends.mapM_none fun chunk listed => ?_).last fun _ _ => .value rfl
  have names (field : Field) (own : field ∈ chunk.values) : (Ident.ofField field.name).Ends none :=
    (met.argument member (inside chunk listed field own)).1
  cases chunk with
  | fixedWidth field ty | variableWidth field ty =>
    exact (names field List.mem_cons_self).last fun _ _ => .value rfl
  | bits members => exact (Except.Ends.mapM_none names).last fun _ _ => .value rfl

theorem items_ends (met : RecordsMet grammar d config) :
    (items d).Ends (first? grammar d config (ofMethodCode d)) := by
  rw [items, ofMethodCode, first?_append, first?_map, first?_map]
  refine (Gen.Ends.ofExcept (tables_ends met)).next fun tables _ => ?_
  refine (Gen.Ends.mapM fun m member => decoder_ends met member).bind fun decoders _ => ?_
  refine (Gen.Ends.ofExcept ?_).last fun encoders _ => Gen.Ends.pure _
  exact Except.Ends.mapM fun m member => encoder_ends met member

end MethodCode

namespace PropertyCode

theorem entry_ends (met : RecordsMet grammar d config) {c : Class} (member : c ∈ d.classes)
    (named : (typeName [c.name]).Holds grammar d config) :
    (entry d c).Ends (first? grammar d config
      [functionName ["decode", c.name, "properties"],
        functionName ["encode", c.name, "properties"]]) := by
  rw [entry, first?_cons, first?_cons]
  refine (Gen.Ends.report _).next fun _ _ => ?_
  refine (Gen.Ends.ofExcept (named.ends (Ident.ofType_ends _))).next fun id _ => ?_
  refine (Gen.Ends.ofExcept (met.propertiesIdent member)).next fun record _ => ?_
  refine (Gen.Ends.ofExcept (Ident.ofFunction_ends _)).bind fun decode _ => ?_
  refine (Gen.Ends.ofExcept (Ident.ofFunction_ends _)).bind fun encode _ => ?_
  have reads (field : Field) (inside : field ∈ c.properties.toList) :
      (PropertyDecoderCode.readOf d field).Ends none := by
    obtain ⟨id, ty⟩ := met.property member inside
    exact id.next fun _ _ => ty.last fun _ _ => .value rfl
  have writes (field : Field) (inside : field ∈ c.properties.toList) :
      (PropertyEncoderCode.writeOf d field).Ends none := by
    obtain ⟨id, ty⟩ := met.property member inside
    refine id.next fun _ _ => ty.next fun ty _ => ?_
    split
    · exact .value rfl
    · split <;> exact .value rfl
  rw [PropertyDecoderCode.ofClass, PropertyEncoderCode.ofClass]
  refine (Gen.Ends.ofExcept ((Except.Ends.mapM_none reads).last fun _ _ => .value rfl)).next
    fun decoder _ => ?_
  exact (Gen.Ends.ofExcept ((Except.Ends.mapM_none writes).last fun _ _ => .value rfl)).next
    fun encoder _ => Gen.Ends.pure _

theorem items_ends (met : RecordsMet grammar d config)
    (named : ∀ c ∈ d.classes, (typeName [c.name]).Holds grammar d config) :
    (items d).Ends (first? grammar d config (ofPropertyCode d)) := by
  rw [items, ofPropertyCode, first?_flatMap]
  exact (Gen.Ends.mapM fun c member => entry_ends met member (named c member)).last fun _ _ =>
    Gen.Ends.pure _

end PropertyCode

namespace Constant

/-- The error for a code that does not fit sixteen bits. -/
def outOfRange? (c : Constant) : Option ExceptionError :=
  if c.replyCode?.isSome then none else some (.codeOutOfRange c.name c.code)

theorem toException_ends (c : Constant) : c.toException.Ends c.outOfRange? := by
  rw [outOfRange?, toException]
  cases c.replyCode? with
  | some code => exact .value rfl
  | none => exact .error rfl

theorem failure?_replyCode (c : Constant) :
    (replyCode c).failure? grammar d config = c.outOfRange?.map GenerateError.ofException := by
  rw [outOfRange?, failure?]
  cases c.replyCode? <;> rfl

end Constant

/-- The exceptions depend on the one that stands in for others, and on all codes. The one that stands
in is among those whose codes have been looked at. -/
theorem LookupCode.items_ends (d : Description) :
    (LookupCode.items d).Ends (first? grammar d config (ofExceptions d)) := by
  have table : ((ExceptionTable.ofConstants d.constants).mapError GenerateError.ofException).Ends
      (first? grammar d config (ofExceptions d)) := by
    have codes : first? grammar d config ((d.constants.filter (·.errorClass.isException)).map replyCode) =
        ((d.constants.filter (·.errorClass.isException)).findSome? Constant.outOfRange?).map
          GenerateError.ofException := by
      rw [first?_map, List.map_findSome?]
      exact congrArg (List.findSome? · _) (funext Constant.failure?_replyCode)
    rw [ofExceptions, first?_cons, codes, failure?, ExceptionTable.ofConstants]
    cases found : ExceptionTable.fallback? d.constants with
    | none => exact .error rfl
    | some standIn =>
      have listed : standIn ∈ d.constants.filter (·.errorClass.isException) := by
        have fallback := List.find?_some found
        simp only [Bool.and_eq_true, beq_iff_eq] at fallback
        rw [List.mem_filter, fallback.2]
        exact ⟨List.mem_of_find?_eq_some found, rfl⟩
      refine Except.Ends.mapError ?_ _
      refine (Except.Ends.mapM fun c _ => c.toException_ends).last fun exceptions ran => ?_
      obtain ⟨info, here⟩ := Except.exists_mapM_eq_ok.mp ⟨exceptions, ran⟩ standIn listed
      exact (Except.Ends.value here).last fun _ _ => .value rfl
  exact table.last fun _ _ => .value rfl

theorem Program.ofDescription_ends (d : Description) :
    (Program.ofDescription d).Ends (first? grammar d config
      (ofDeclarations d ++ (ofMethodCode d ++ (ofPropertyCode d ++ ofExceptions d)))) := by
  rw [ofDescription, first?_append, first?_append, first?_append]
  have declared : (Declarations.items d).Ends (first? grammar d config (ofDeclarations d)) :=
    Declarations.items_ends d
  refine declared.bind fun declarations yields => ?_
  have conditions := first?_eq_none_iff.mp (declared.eq_none yields)
  rw [ofDeclarations, List.forall_mem_append, List.forall_mem_append] at conditions
  obtain ⟨-, records, named⟩ := conditions
  have met : RecordsMet grammar d config := .of_ofClass records
  refine (MethodCode.items_ends met).bind fun methods _ => ?_
  refine (PropertyCode.items_ends met (List.forall_mem_map.mp named)).bind fun properties _ => ?_
  exact (Gen.Ends.ofExcept (LookupCode.items_ends d)).last fun _ _ => Gen.Ends.pure _

theorem Config.runtimePath_ends (grammar : PathGrammar) (config : Config) :
    (config.runtimePath grammar).Ends (failure? grammar d config .runtimePath) := by
  rw [failure?, runtimePath]
  cases grammar.parse? (Text.trim config.runtimeCrate) with
  | some path => exact .value rfl
  | none => exact .error rfl

theorem generateSteps_ends (grammar : PathGrammar) (d : Description) (config : Config) :
    (generateSteps grammar d config).Ends (first? grammar d config d.conditions) := by
  rw [generateSteps, Description.conditions, first?_cons]
  refine (Gen.Ends.report _).next fun _ _ => ?_
  refine (Gen.Ends.ofExcept (config.runtimePath_ends grammar)).bind fun path _ => ?_
  refine (Program.ofDescription_ends d).last fun program _ => ?_
  exact (Gen.Ends.report _).next fun _ _ => Gen.Ends.pure _

/-- A generation ends with the error of the first condition that is not met, and with its files if
there is none. -/
theorem generate_reports_first_failure (grammar : PathGrammar) (d : Description) (config : Config) :
    ((∃ artifacts, (generate grammar d config).1 = .ok artifacts) ↔
      ∀ condition ∈ d.conditions, ∀ e, ¬ condition.Fails grammar d config e) ∧
    ∀ before condition after e, d.conditions = before ++ condition :: after →
      (∀ earlier ∈ before, ∀ e, ¬ earlier.Fails grammar d config e) → condition.Fails grammar d config e →
        (generate grammar d config).1 = .error e := by
  have ends : (generate grammar d config).1.Ends (d.conditions.findSome? (failure? grammar d config)) :=
    generateSteps_ends grammar d config []
  constructor
  · rw [ends.exists_ok_iff_forall]
    exact forall₂_congr fun condition _ => failure?_eq_none_iff
  · intro before condition after e parts met fails
    rw [parts] at ends
    exact ends.error_of_first (fun earlier inside => failure?_eq_none_iff.mpr (met earlier inside))
      (failure?_eq_some_iff.mpr fails)

/-- The path is no obstacle where the settings have one. -/
theorem Condition.runtimePath_holds {grammar : PathGrammar} {d : Description} {config : Config}
    {path : RuntimePath} (found : config.runtimePath grammar = .ok path) :
    Condition.runtimePath.Holds grammar d config := by
  rw [← failure?_eq_none_iff, failure?, Config.runtimePath_eq_ok.mp found]
  rfl

namespace SeveralDefects

/-- An argument whose default does not fit, in front of one without a type. -/
def method : Method :=
  ((Method.new 10 "open").withArgument (.new "virtual-host" "shortstr" (some (.int 1)))).withArgument
    (.new "reserved" "mystery" none)

/-- A class whose method is defective, in front of one without a name, and no constants. -/
def description : Description :=
  { Description.new ⟨0, 9, 1⟩ 5672 with
    classes := [(Class.new 40 "channel").withMethod method, .new 50 "9"]
    bounded := by decide }

/-- Of several defects the first one is reported: the default in front of the domain behind it, the
name of a class and the missing exception. -/
theorem first_defect_is_reported :
    (generate .names description ⟨"rt", "framing"⟩).1 =
      .error (.defaultMismatch "channel.open" "virtual-host" (.int 1) .shortstr) := by
  let field : Field := ⟨"virtual-host", "shortstr", some (.int 1), 0⟩
  have path : Condition.runtimePath.Holds .names description ⟨"rt", "framing"⟩ :=
    Condition.runtimePath_holds (Config.runtimePath_of_rt rfl)
  refine (generate_reports_first_failure .names description ⟨"rt", "framing"⟩).2
    [.runtimePath, typeName ["channel", "open"], fieldName field, .domain field]
    (.fit "channel.open" field (.int 1)) (description.conditions.drop 5) _ rfl ?_ (.fit rfl ?_)
  · simp only [List.forall_mem_cons]
    refine ⟨path, ?_, ?_, ?_, List.forall_mem_nil _⟩
    · exact failure?_eq_none_iff.mp (by decide +kernel)
    · exact failure?_eq_none_iff.mp (by decide +kernel)
    · exact failure?_eq_none_iff.mp (by decide +kernel)
  · simp [DefaultValue.Fits, WireType.fixedWidth?]

end SeveralDefects

end WireProtocol
