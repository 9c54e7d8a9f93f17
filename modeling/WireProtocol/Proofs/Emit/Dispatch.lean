import WireProtocol.Proofs.Codec.Dispatch
import WireProtocol.Proofs.Config.RuntimePath
import WireProtocol.Proofs.Emit.DispatchCalls
import WireProtocol.Proofs.Emit.Text
import WireProtocol.Proofs.Emit.Yields

/-!
# Dispatch in generated code

* `Program.Tabulates`, `Program.tabulates`: the code of a description lists its methods, its classes
  and its properties.
* `Program.Dispatches`, `Program.dispatches`: calls of the functions that choose by ids and names end as the
  description says.
* `ids_and_names_dispatch`: so they do in the files of a generation.
-/

namespace WireProtocol

open Code

/-- The code finds methods, classes and properties in tables that list them in order. -/
structure Program.Tabulates (program : Program) (d : Description) : Prop where
  methods : ∃ tables, MethodCode.tables d = .ok tables ∧ tables <+: program.definitions
  classes : LookupCode.classes d <:+: program.definitions
  properties : ∃ entries : List PropertyCode.Entry,
    List.Forall₂ (fun c e => e.IsFor c.id c.name) d.classes entries ∧
      PropertyCode.decodeDispatch entries ∈ program.definitions ∧
      PropertyCode.encodeDispatch entries ∈ program.definitions
  choice : ∃ items, Declarations.propertiesChoice d = .ok items ∧ items <:+ program.declarations

/-- Calls of the functions that choose by ids and names end as the searches in the description do. Those for
properties call the functions of single classes, which do what the layouts say. -/
structure Program.Dispatches (program : Program) (d : Description) (layouts : List PropertyLayout) : Prop where
  methodNames : ∀ calls classId methodId,
    CallReturns program.definitions calls "lookup_method_name" [.number classId, .number methodId]
      Method.IsNamed (d.methodOfIds classId methodId)
  methodIds : ∀ calls name m, d.methodOfName? name = some m →
    CallEnds program.definitions calls "method_id" [.variant "MethodName" name]
      (.value (.numbers m.classId m.id))
  classNames : ∀ calls id, CallEnds program.definitions calls "lookup_class_name" [.number id]
    (.result ((d.classOfId id).map fun c => .text c.name))
  classIds : ∀ calls name, CallEnds program.definitions calls "class_id" [.text name]
    (.result ((d.classOfName name).map fun c => .number c.id))
  decodes : ∀ calls : Calls, calls.Follow layouts → ∀ id payload,
    CallReturns program.definitions calls "decode_properties" [.number id, .octets payload]
      Properties.IsHeld (Properties.decode layouts id payload)
  encodes : ∀ calls : Calls, calls.Follow layouts → ∀ id p,
    FirstWith (fun p => Ident.ofType [p.name] = .ok id) layouts p →
      ∀ record, TypedProperties p.types record →
        CallEnds program.definitions calls "encode_properties" [.holding "Properties" id (.record record)]
          (.result ((p.encode record).map .octets))
  /-- The question that the declarations answer for properties of any class. -/
  propertyIds : ∀ calls id p, FirstWith (fun p => Ident.ofType [p.name] = .ok id) layouts p → ∀ held,
    CallOnEnds program.declarations calls "Properties" "class_id" [.holding "Properties" id held]
      (.value (.number p.classId))

section

variable {grammar : PathGrammar} {d : Description} {config : Config} {artifacts : Artifacts}

theorem MethodCode.exists_names {tables : List Item} (h : MethodCode.tables d = .ok tables) :
    ∃ names, d.methods.mapM Method.typeIdent = .ok names := by
  obtain ⟨entries, emitted, -⟩ := Except.bind_eq_ok.mp h
  refine Except.exists_mapM_eq_ok.mpr fun m member => ?_
  obtain ⟨e, made⟩ := Except.exists_mapM_eq_ok.mp ⟨entries, emitted⟩ m member
  obtain ⟨name, named, -⟩ := Except.bind_eq_ok.mp made
  exact ⟨name, named⟩

theorem Program.tabulates {program : Program} (made : (Program.ofDescription d).Yields program) :
    program.Tabulates d := by
  obtain ⟨declarations, declared, h⟩ := made.bind
  obtain ⟨methods, emitted, h⟩ := h.bind
  obtain ⟨properties, emitted', h⟩ := h.bind
  obtain ⟨lookups, looked, h⟩ := h.bind
  cases h.eq_of_pure
  constructor
  · obtain ⟨tables, tabulated, emitted⟩ := emitted.bind
    obtain ⟨decoders, -, emitted⟩ := emitted.bind
    obtain ⟨encoders, -, emitted⟩ := emitted.bind
    refine ⟨tables, tabulated.ofExcept, ?_⟩
    rw [emitted.eq_of_pure]
    simp only [List.append_assoc, List.prefix_append]
  · obtain ⟨table, -, same⟩ := Except.bind_eq_ok.mp looked.ofExcept
    cases same
    exact ⟨methods ++ properties ++ [LookupCode.version], LookupCode.exceptions table, by simp⟩
  · obtain ⟨entries, listed, emitted⟩ := emitted'.bind
    refine ⟨entries, listed.forall₂_of_mapM.imp fun _ _ => PropertyCode.isFor_of_entry, ?_, ?_⟩ <;>
      simp [emitted.eq_of_pure]
  · obtain ⟨constants, -, declared⟩ := declared.bind
    obtain ⟨records, -, declared⟩ := declared.bind
    obtain ⟨names, -, declared⟩ := declared.bind
    obtain ⟨methodChoice, -, declared⟩ := declared.bind
    obtain ⟨propertiesChoice, chosen, declared⟩ := declared.bind
    refine ⟨propertiesChoice, chosen.ofExcept, ?_⟩
    rw [declared.eq_of_pure]
    exact List.suffix_append _ _

theorem Program.dispatches {program : Program} {layouts : List PropertyLayout}
    (tabulates : program.Tabulates d) (laid : d.propertyLayouts = .ok layouts) :
    program.Dispatches d layouts := by
  obtain ⟨tables, tabulated, methods⟩ := tabulates.methods
  obtain ⟨entries, each, decodes, encodes⟩ := tabulates.properties
  obtain ⟨items, chosen, declared⟩ := tabulates.choice
  have each' : List.Forall₂ (fun p e => PropertyCode.Entry.IsFor e p.classId p.name) layouts entries :=
    (Except.forall₂_of_mapM laid).flip.comp each fun p c e own here => by
      obtain ⟨id, name, -⟩ := Description.propertyLayout_eq_ok.mp own
      rwa [id, name]
  exact {
    methodNames := fun calls classId methodId =>
      (MethodCode.call_lookup_method_name calls tabulated classId methodId).mono methods.subset
    methodIds := fun calls name m found =>
      (MethodCode.call_method_id calls tabulated found).mono methods.subset
    classNames := fun calls id =>
      (LookupCode.call_lookup_class_name d calls id).mono tabulates.classes.subset
    classIds := fun calls name => (LookupCode.call_class_id d calls name).mono tabulates.classes.subset
    decodes := fun calls follow => PropertyCode.call_decode_properties each' decodes follow
    encodes := fun calls follow id p first record =>
      PropertyCode.call_encode_properties each' encodes follow first
    propertyIds := fun calls id p first held =>
      (Declarations.call_class_id chosen laid calls first held).mono declared.subset }

/-- Calls of `lookup_method_name`, `method_id`, `lookup_class_name`, `class_id`, `decode_properties` and
`encode_properties` in generated code end as `Description.methodOfIds`, `Description.methodOfName?`,
`Description.classOfId`, `Description.classOfName`, `Properties.decode` and `PropertyLayout.encode` do, and these
lead from ids to names and back: `d.Dispatches names layouts`. -/
theorem ids_and_names_dispatch (generated : (generate grammar d config).1 = .ok artifacts) :
    ∃ program path names layouts, (Program.ofDescription d).Yields program ∧
      config.runtimePath grammar = .ok path ∧
      artifacts = program.artifacts (d.version.artifactName config.artifactStem) d.version path ∧
      program.WrittenIn path artifacts ∧ program.Tabulates d ∧ d.methods.mapM Method.typeIdent = .ok names ∧
      d.propertyLayouts = .ok layouts ∧ program.Dispatches d layouts ∧ d.Dispatches names layouts := by
  obtain ⟨program, path, made, found, same⟩ := exists_program generated
  have tabulates := Program.tabulates made
  obtain ⟨tables, tabulated, -⟩ := tabulates.methods
  obtain ⟨names, named⟩ := MethodCode.exists_names tabulated
  obtain ⟨layouts, laid⟩ := Description.exists_propertyLayouts (generate_properties generated)
  exact ⟨program, path, names, layouts, made, found, same, same ▸ program.writtenIn _ _ _, tabulates, named,
    laid, Program.dispatches tabulates laid, Description.dispatches named laid⟩

end

namespace TwoClasses

def config : Config := ⟨"rt", "framing"⟩

/-- Two classes with a method each, one of them without properties. -/
def description : Description :=
  { Description.new ⟨0, 9, 1⟩ 5672 with
    classes := [BasicContent.basic.withMethod (.new 40 "publish"),
      BasicContent.tx.withMethod (.new 10 "select")]
    constants := [⟨"internal-error", 541, .hard⟩]
    bounded := by decide }

theorem exists_generated : ∃ artifacts, (generate .names description config).1 = .ok artifacts := by
  have complete : (generate .names description config).1.isOk = true := by
    unfold generate generateSteps
    rw [Config.runtimePath_of_rt rfl]
    decide +kernel
  exact Except.exists_eq_ok_of_isOk complete

def layouts : List PropertyLayout := [BasicContent.layout, ⟨90, "tx", []⟩]

/-- The properties of messages, with a bit that is false. -/
def properties : Properties := ⟨BasicContent.layout, BasicContent.record (some (.bit false))⟩

/-- Functions for the two classes that do what their layouts say. -/
def calls : Calls := fun function argument =>
  match function.text, argument with
  | "decode_basic_properties", .octets payload =>
    some (.result ((BasicContent.layout.decode payload).map .record))
  | "encode_basic_properties", .record record =>
    some (.result ((BasicContent.layout.encode record).map .octets))
  | "decode_tx_properties", .octets payload =>
    some (.result ((PropertyLayout.decode ⟨90, "tx", []⟩ payload).map .record))
  | "encode_tx_properties", .record record =>
    some (.result ((PropertyLayout.encode ⟨90, "tx", []⟩ record).map .octets))
  | _, _ => none

theorem calls_follow : calls.Follow layouts := by
  constructor
  · intro p member function named payload
    obtain rfl | rfl : p = BasicContent.layout ∨ p = ⟨90, "tx", []⟩ := by simpa [layouts] using member
    · cases Except.eq_of_toOption (.plain "decode_basic_properties") (by decide +kernel) named
      rfl
    · cases Except.eq_of_toOption (.plain "decode_tx_properties") (by decide +kernel) named
      rfl
  · intro p member function named record _
    obtain rfl | rfl : p = BasicContent.layout ∨ p = ⟨90, "tx", []⟩ := by simpa [layouts] using member
    · cases Except.eq_of_toOption (.plain "encode_basic_properties") (by decide +kernel) named
      rfl
    · cases Except.eq_of_toOption (.plain "encode_tx_properties") (by decide +kernel) named
      rfl

/-- All ids and names lead back; the properties of messages come back as such, and with another id
nothing does. So it is with calls of the code. -/
theorem two_classes_dispatch : ∃ program path,
    (generate .names description config).1 =
      .ok (Program.artifacts program "framing_0_9_1" ⟨0, 9, 1⟩ path) ∧
    (∃ names, description.methods.mapM Method.typeIdent = .ok names ∧
      ∀ name ∈ names, ∃ m found, description.methodOfName? name = some m ∧
        description.methodOfIds m.classId m.id = .ok found ∧ found.typeIdent = .ok name) ∧
    description.methodOfIds 90 40 = .error (.unknownMethodId 90 40) ∧
    (∀ c ∈ description.classes,
      description.classOfId c.id = .ok c ∧ description.classOfName c.name = .ok c) ∧
    Properties.decode layouts properties.classId (BasicContent.payload 1) =
      .ok ⟨BasicContent.layout, BasicContent.record none⟩ ∧
    (∀ payload, Properties.decode layouts 40 payload = .error (.unknownClassId 40)) ∧
    CallEnds program.definitions calls "lookup_method_name" [.number 90, .number 40]
      (.result (.error (.unknownMethodId 90 40))) ∧
    CallEnds program.definitions calls "encode_properties"
      [.holding "Properties" (.plain "Basic") (.record properties.record)]
      (.result (.ok (.octets (BasicContent.payload 1)))) ∧
    CallOnEnds program.declarations calls "Properties" "class_id"
      [.holding "Properties" (.plain "Basic") (.record properties.record)] (.value (.number 60)) ∧
    CallEnds program.definitions calls "decode_properties" [.number 60, .octets (BasicContent.payload 1)]
      (.result (.ok (.holding "Properties" (.plain "Basic") (.record (BasicContent.record none))))) := by
  obtain ⟨artifacts, generated⟩ := exists_generated
  obtain ⟨program, path, names, layouts', -, -, same, -, -, named, laid, answers, dispatches⟩ :=
    ids_and_names_dispatch generated
  have own : description.propertyLayouts = .ok layouts := rfl
  cases own.symm.trans laid
  have named' : description.methods.mapM Method.typeIdent =
      .ok [.plain "BasicPublish", .plain "TxSelect"] := by
    with_unfolding_all rfl
  cases named'.symm.trans named
  have ids : (description.classes.map (·.id)).Nodup := by decide
  have typed : TypedProperties properties.layout.types properties.record :=
    .present rfl (.present rfl (.present rfl (.present rfl (.absent .nil))))
  obtain ⟨-, back⟩ := dispatches.propertiesBack ids properties List.mem_cons_self
  have decoded : Properties.decode layouts properties.classId (BasicContent.payload 1) =
    .ok ⟨BasicContent.layout, BasicContent.record none⟩ := back _ typed rfl
  have unknown := (dispatches.methods 90 40).eq_error (by decide)
  have variant : Ident.ofType [BasicContent.layout.name] = .ok (.plain "Basic") := by
    with_unfolding_all rfl
  have first : FirstWith (fun p => Ident.ofType [p.name] = .ok (.plain "Basic")) layouts BasicContent.layout :=
    ⟨[], [⟨90, "tx", []⟩], rfl, variant, nofun⟩
  have titled : description.version.artifactName config.artifactStem = "framing_0_9_1" := by
    decide +kernel
  refine ⟨program, path, by rw [generated, same, titled]; rfl,
    ⟨_, named, (dispatches.methodsBack (by decide)).mpr (by decide)⟩, unknown,
    (dispatches.classesBack ids (by decide)).1, decoded, dispatches.unknown 40 (by decide), ?_,
    answers.encodes calls calls_follow _ _ first _ typed, answers.propertyIds calls _ _ first _, ?_⟩
  · have answer := answers.methodNames calls 90 40
    rwa [unknown] at answer
  · have answer := answers.decodes calls calls_follow 60 (BasicContent.payload 1)
    rw [show (60 : UInt16) = properties.classId from rfl, decoded] at answer
    obtain ⟨value, ⟨id, spelled, rfl⟩, ends⟩ := answer
    cases variant.symm.trans spelled
    exact ends

end TwoClasses

end WireProtocol
