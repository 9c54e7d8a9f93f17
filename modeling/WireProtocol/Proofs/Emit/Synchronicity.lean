import WireProtocol.Proofs.Codec.Synchronicity
import WireProtocol.Proofs.Emit.Defaults
import WireProtocol.Proofs.Emit.Dispatch
import WireProtocol.Proofs.Emit.Mirror

/-!
# Synchronous methods in generated code

* `Answers`: what a case of the generated table says of a record, given what the fields of the record hold.
* `MethodCode.synchronousArm_eq_ok`: the case of a method reads the first argument that can tell the
  receiver not to reply, if there is one.
* `MethodCode.answers_iff`: it says of each record whether its sender waits.
* `Item.DeclaresRecord`, `Declarations.exists_declaresRecord`: the records of a method are declared with a
  field for each of its arguments.
* `Program.AsksRecords`, `Program.asksRecords`: the code has a function with such a case for every method.
* `synchronous_unless_told_otherwise`: which records are synchronous, and that the code finds out.
-/

namespace WireProtocol

open Tokens

/-! ## Cases of the table -/

/-- The case of a method whose records are all alike. -/
def fixedCase (variant : Ident) (value : Bool) : Tokens × Tokens :=
  (member "Method" variant ++ parens (words "_"), Literal.bool value)

/-- The case of a method whose records tell by a field that is set that nobody waits. -/
def flagCase (variant flag : Ident) : Tokens × Tokens :=
  (member "Method" variant ++ parens (words "ref record"), words "! record ." ++ name flag)

/-- The case says so of a record whose fields hold these values. -/
inductive Answers (variant : Ident) (holds : Ident → WireValue) : Tokens × Tokens → Bool → Prop
  | fixed (value : Bool) : Answers variant holds (fixedCase variant value) value
  | flag {flag : Ident} {value : Bool} (held : holds flag = .bit value) :
      Answers variant holds (flagCase variant flag) (!value)

theorem fixedCase_inj {variant : Ident} {value value' : Bool} :
    fixedCase variant value = fixedCase variant value' ↔ value = value' := by
  cases value <;> cases value' <;> simp [fixedCase, Literal.bool]

theorem flagCase_inj {variant flag flag' : Ident} :
    flagCase variant flag = flagCase variant flag' ↔ flag = flag' := by
  simp [flagCase, name]

theorem fixedCase_ne_flagCase {variant flag : Ident} {value : Bool} :
    fixedCase variant value ≠ flagCase variant flag := by
  intro same
  have last := congrArg (fun arm : Tokens × Tokens => arm.2.getLast?) same
  simp [fixedCase, flagCase, Literal.bool, name] at last

namespace Answers

variable {variant : Ident} {holds : Ident → WireValue} {answer : Bool}

theorem fixed_iff {value : Bool} :
    Answers variant holds (fixedCase variant value) answer ↔ answer = value := by
  constructor
  · generalize same : fixedCase variant value = arm
    rintro (value' | held)
    · exact (fixedCase_inj.mp same).symm
    · exact (fixedCase_ne_flagCase same).elim
  · rintro rfl
    exact .fixed answer

theorem flag_iff {flag : Ident} {value : Bool} (held : holds flag = .bit value) :
    Answers variant holds (flagCase variant flag) answer ↔ answer = !value := by
  constructor
  · generalize same : flagCase variant flag = arm
    rintro (value' | held')
    · exact (fixedCase_ne_flagCase same.symm).elim
    · cases flagCase_inj.mp same
      cases held.symm.trans held'
      rfl
  · rintro rfl
    exact .flag held

end Answers

/-! ## Cases of methods -/

namespace MethodCode

variable {d : Description} {m : Method} {id : Ident}

theorem noWait?_cons {field : Field} {fields : List Field} {found : Option Field}
    (h : noWait? d (field :: fields) = .ok found) :
    d.NoWait field ∧ found = some field ∨ ¬ d.NoWait field ∧ noWait? d fields = .ok found := by
  rw [noWait?] at h
  split at h
  · next named =>
    obtain ⟨ty, asked, h⟩ := Except.bind_eq_ok.mp h
    have known := Except.mapError_eq_ok.mp asked
    rw [← MethodLayout.isNoWait_iff known, MethodLayout.isNoWait, named, Bool.and_true]
    split at h
    · next bit =>
      cases h
      exact .inl ⟨bit, rfl⟩
    · next other => exact .inr ⟨other, h⟩
  · next other => exact .inr ⟨fun noWait => other (Naming.isNoWait_iff.mpr noWait.named), h⟩

/-- The search among the arguments finds the first one that can tell the receiver not to reply. -/
theorem noWait?_eq_ok {fields : List Field} {found : Option Field} (h : noWait? d fields = .ok found) :
    (found = none ∧ ∀ field ∈ fields, ¬ d.NoWait field) ∨
      ∃ i field, found = some field ∧ d.FirstNoWait fields i ∧ fields[i]? = some field := by
  induction fields with
  | nil =>
    cases h
    exact .inl ⟨rfl, nofun⟩
  | cons field fields ih =>
    rcases noWait?_cons h with ⟨noWait, rfl⟩ | ⟨other, h⟩
    · exact .inr ⟨0, field, rfl, .head noWait, rfl⟩
    · rcases ih h with ⟨rfl, none⟩ | ⟨i, found, rfl, first, there⟩
      · exact .inl ⟨rfl, List.forall_mem_cons.mpr ⟨other, none⟩⟩
      · exact .inr ⟨i + 1, found, rfl, .tail other first, there⟩

/-- The case of a method reads the first argument that can tell the receiver not to reply. -/
theorem synchronousArm_eq_ok {arm : Tokens × Tokens} (h : synchronousArm d m id = .ok arm) :
    arm = fixedCase id m.synchronous ∧
        (m.synchronous = true → ∀ field ∈ m.arguments.toList, ¬ d.NoWait field) ∨
      m.synchronous = true ∧ ∃ i field flag, d.FirstNoWait m.arguments.toList i ∧
        m.arguments.toList[i]? = some field ∧ Ident.ofField field.name = .ok flag ∧
        arm = flagCase id flag := by
  rw [synchronousArm] at h
  split at h
  · next declared =>
    obtain ⟨found, asked, h⟩ := Except.bind_eq_ok.mp h
    rcases noWait?_eq_ok asked with ⟨rfl, none⟩ | ⟨i, field, rfl, first, there⟩
    · cases h
      exact .inl ⟨rfl, fun _ => none⟩
    · obtain ⟨flag, named, h⟩ := Except.bind_eq_ok.mp h
      cases h
      exact .inr ⟨declared, i, field, flag, first, there, named, rfl⟩
  · next declared =>
    cases h
    exact .inl ⟨rfl, fun declared' => (declared declared').elim⟩

/-- The case of a method says of each record whether its sender waits. -/
theorem answers_iff {arm : Tokens × Tokens} {layout : MethodLayout} {fields : List Ident}
    {holds : Ident → WireValue} {answer : Bool} (h : synchronousArm d m id = .ok arm)
    (resolved : d.methodLayout m = .ok layout)
    (named : List.Forall₂ (fun field id => Ident.ofField field.name = .ok id) m.arguments.toList fields)
    (typed : (fields.map holds).map WireValue.wireType = layout.types) :
    Answers id holds arm answer ↔ answer = layout.isSynchronous (fields.map holds) := by
  rcases synchronousArm_eq_ok h with ⟨rfl, none⟩ | ⟨declared, i, field, flag, first, there, known, rfl⟩
  · have same : layout.isSynchronous (fields.map holds) = m.synchronous := by
      rw [Bool.eq_iff_iff, MethodLayout.isSynchronous_iff resolved typed]
      exact ⟨And.left, fun declared => ⟨declared, .inl (none declared)⟩⟩
    rw [same]
    exact Answers.fixed_iff
  · obtain ⟨value, resolves, held, -⟩ := MethodLayout.exists_pair resolved typed there
    obtain ⟨field', there', noWait⟩ := first.here
    cases there.symm.trans there'
    obtain ⟨bit, rfl⟩ := WireValue.wireType_eq_bit.mp (Except.ok.inj (resolves.symm.trans noWait.bit))
    have own : holds flag = .bit bit := by
      rw [List.getElem?_map, Option.map_eq_some_iff] at held
      obtain ⟨flag', listed, held⟩ := held
      cases known.symm.trans (named.of_getElem? there listed)
      exact held
    rw [MethodLayout.isSynchronous_of_first resolved typed first held, declared, Bool.true_and]
    exact Answers.flag_iff own

end MethodCode

/-! ## Records of methods -/

section

variable {d : Description} {m : Method} {config : Config} {artifacts : Artifacts}

/-- The item declares the records of the method by that name, with these fields for its arguments. -/
def Item.DeclaresRecord (d : Description) (m : Method) (record : Ident) (fields : List Ident) (item : Item) :
    Prop :=
  ∃ front declared, item = .record front record declared ∧ declared.map Prod.fst = fields ∧
    List.Forall₂ (fun argument field => Ident.ofField argument.name = .ok field.1 ∧
      ∃ ty, d.fieldType argument = .ok ty ∧ field.2 = typeOf ty) m.arguments.toList declared

theorem Item.DeclaresRecord.named {record : Ident} {fields : List Ident} {item : Item}
    (h : item.DeclaresRecord d m record fields) :
    List.Forall₂ (fun field id => Ident.ofField field.name = .ok id) m.arguments.toList fields := by
  obtain ⟨front, declared, -, rfl, corresponds⟩ := h
  rw [List.forall₂_map_right_iff]
  exact corresponds.imp fun _ _ => And.left

namespace Declarations

theorem exists_declaresRecord_of_methodRecord {items : List Item} (h : (methodRecord d m).Yields items) :
    ∃ record fields, m.typeIdent = .ok record ∧ ∃ item ∈ items, item.DeclaresRecord d m record fields := by
  obtain ⟨record, named, h⟩ := h.bind
  obtain ⟨arguments, emitted, h⟩ := h.bind
  have corresponds : List.Forall₂ (fun argument field => Ident.ofField argument.name = .ok field.1 ∧
      ∃ ty, d.fieldType argument = .ok ty ∧ field.2 = typeOf ty) m.arguments.toList
      (arguments.map fun code => (code.1, code.2.1)) := by
    rw [List.forall₂_map_right_iff]
    refine emitted.forall₂_of_mapM.imp fun argument code h => ?_
    obtain ⟨id, known, h⟩ := h.bind
    obtain ⟨ty, asked, h⟩ := h.bind
    obtain ⟨init, -, h⟩ := h.bind
    rw [h.eq_of_pure]
    exact ⟨known.ofExcept, ty, asked.ask, rfl⟩
  refine ⟨record, arguments.map fun code => code.1, named.ofExcept, ?_⟩
  split at h
  all_goals
    rw [h.eq_of_pure]
    exact ⟨_, List.mem_cons_self, _, _, rfl, List.map_map, corresponds⟩

theorem exists_declaresRecord {declarations : List Item}
    (h : (Declarations.items d).Yields declarations) (member : m ∈ d.methods) :
    ∃ record fields, m.typeIdent = .ok record ∧
      ∃ item ∈ declarations, item.DeclaresRecord d m record fields := by
  obtain ⟨constants, -, h⟩ := h.bind
  obtain ⟨records, emitted, h⟩ := h.bind
  obtain ⟨names, -, h⟩ := h.bind
  obtain ⟨methods, -, h⟩ := h.bind
  obtain ⟨properties, -, h⟩ := h.bind
  obtain ⟨c, listed, inside⟩ := List.mem_flatMap.mp member
  obtain ⟨own, among, emitted⟩ := emitted.forall₂_of_mapM.exists_of_mem listed
  obtain ⟨-, -, emitted⟩ := emitted.bind
  obtain ⟨items, made, emitted⟩ := emitted.bind
  obtain ⟨last, -, emitted⟩ := emitted.bind
  obtain ⟨those, here, made⟩ := made.forall₂_of_mapM.exists_of_mem inside
  obtain ⟨record, fields, named, item, declared, declares⟩ := exists_declaresRecord_of_methodRecord made
  refine ⟨record, fields, named, item, ?_, declares⟩
  have inOwn : item ∈ own := by
    rw [emitted.eq_of_pure]
    exact List.mem_append_left _ (List.mem_flatten.mpr ⟨those, here, declared⟩)
  rw [h.eq_of_pure]
  have inRecords : item ∈ records.flatten := List.mem_flatten.mpr ⟨own, among, inOwn⟩
  simp [inRecords]

end Declarations

/-! ## Programs -/

/-- The case of the method says of each of its records whether its sender waits, whatever values of the right
types the fields hold that the record has been declared with. -/
def Program.TellsWaiting (program : Program) (d : Description) (m : Method) (arm : Tokens × Tokens) : Prop :=
  ∃ record fields layout, m.typeIdent = .ok record ∧ d.methodLayout m = .ok layout ∧
    (∃ item ∈ program.declarations, item.DeclaresRecord d m record fields) ∧
    ∀ holds : Ident → WireValue, (fields.map holds).map WireValue.wireType = layout.types →
      ∀ answer, Answers record holds arm answer ↔ answer = layout.isSynchronous (fields.map holds)

/-- The code has a function with such a case for every method, in order. -/
def Program.AsksRecords (program : Program) (d : Description) : Prop :=
  ∃ arms, (∃ item ∈ program.definitions,
      item.IsFunction (.plain "is_method_synchronous") (cases (words "* method") arms)) ∧
    List.Forall₂ (program.TellsWaiting d) d.methods arms

theorem MethodCode.exists_arms {tables : List Item} (h : MethodCode.tables d = .ok tables) :
    ∃ arms, (∃ item ∈ tables,
        item.IsFunction (.plain "is_method_synchronous") (cases (words "* method") arms)) ∧
      List.Forall₂ (fun m arm => ∃ record, m.typeIdent = .ok record ∧
        synchronousArm d m record = .ok arm) d.methods arms := by
  obtain ⟨entries, made, same⟩ := Except.bind_eq_ok.mp h
  cases same
  refine ⟨entries.map (·.synchronous), ⟨_, List.getLast_mem (List.cons_ne_nil _ _), _, _, _, _, by decide, rfl⟩, ?_⟩
  rw [List.forall₂_map_right_iff]
  refine (Except.forall₂_of_mapM made).imp fun m e h => ?_
  obtain ⟨record, named, h⟩ := Except.bind_eq_ok.mp h
  obtain ⟨arm, asked, same⟩ := Except.bind_eq_ok.mp h
  cases same
  exact ⟨record, named, asked⟩

theorem Program.asksRecords {program : Program} (made : (Program.ofDescription d).Yields program)
    (fits : ∀ method ∈ d.methods, ∀ field ∈ method.arguments.toList, d.Fits field) :
    program.AsksRecords d := by
  obtain ⟨tables, tabulated, inside⟩ := (Program.tabulates made).methods
  obtain ⟨arms, ⟨item, member, function⟩, each⟩ := MethodCode.exists_arms tabulated
  obtain ⟨declarations, emitted, made⟩ := made.bind
  obtain ⟨methods, -, made⟩ := made.bind
  obtain ⟨properties, -, made⟩ := made.bind
  obtain ⟨lookups, -, made⟩ := made.bind
  have own : program.declarations = declarations := by rw [made.eq_of_pure]
  refine ⟨arms, ⟨item, inside.subset member, function⟩, ?_⟩
  refine ((List.forall₂_and_left _ _).mpr ⟨fun m listed => listed, each⟩).imp fun m arm h => ?_
  obtain ⟨listed, record, named, asked⟩ := h
  obtain ⟨layout, resolved, -⟩ := Description.exists_methodLayout (fits m listed)
  obtain ⟨record', fields, named', item, declared, declares⟩ :=
    Declarations.exists_declaresRecord emitted listed
  cases named.symm.trans named'
  exact ⟨record, fields, layout, named, resolved, ⟨item, own ▸ declared, declares⟩, fun holds typed answer =>
    MethodCode.answers_iff asked resolved declares.named typed⟩

/-- The sender of a record waits for a reply if the method is synchronous, unless the first bit of the record
that is named like `nowait` is set: an asynchronous method has no such records, and nothing else of a record
counts. The code for a description asks the records of all of its methods for just that. -/
theorem synchronous_unless_told_otherwise (d : Description) :
    (∀ m layout, d.methodLayout m = .ok layout → d.DecidesWaiting m layout) ∧
    ∀ grammar config artifacts, (generate grammar d config).1 = .ok artifacts →
      ∃ program path, (Program.ofDescription d).Yields program ∧ config.runtimePath grammar = .ok path ∧
        artifacts = program.artifacts (d.version.artifactName config.artifactStem) d.version path ∧
        program.WrittenIn path artifacts ∧ program.AsksRecords d := by
  refine ⟨fun m layout => Description.decidesWaiting, fun grammar config artifacts generated => ?_⟩
  obtain ⟨program, path, made, found, same⟩ := exists_program generated
  exact ⟨program, path, made, found, same, same ▸ program.writtenIn _ _ _,
    Program.asksRecords made (generate_arguments generated)⟩

end

/-! ## Three arguments of one name -/

namespace QueueDelete

def config : Config := ⟨"rt", "framing"⟩

/-- A synchronous method with an octet, an alias of bits and a bit, all of which are called `nowait`. -/
def delete : Method :=
  let fields := [Field.new "nowait" "octet" none, Field.new "No-Wait" "flag" none,
    Field.new "no_wait " "bit" none]
  fields.foldl Method.withArgument { Method.new 40 "delete" with synchronous := true }

def queue : Class :=
  (Class.new 50 "queue").withMethod delete

def description : Description :=
  { (Description.new ⟨0, 9, 1⟩ 5672).withDomain "flag" "bit" with
    classes := [queue]
    constants := [⟨"internal-error", 541, .hard⟩]
    bounded := by decide }

theorem exists_generated : ∃ artifacts, (generate .names description config).1 = .ok artifacts := by
  have complete : (generate .names description config).1.isOk = true := by
    unfold generate generateSteps
    rw [Config.runtimePath_of_rt rfl]
    decide +kernel
  exact Except.exists_eq_ok_of_isOk complete

def layout : MethodLayout where
  name := "queue.delete"
  hasContent := false
  synchronous := true
  arguments := (delete.attach 50 "queue").arguments.toList.zip [.octet, .bit, .bit]

/-- The alias comes first among the bits. -/
theorem first : description.FirstNoWait (delete.attach 50 "queue").arguments.toList 1 := by
  refine ⟨⟨_, rfl, rfl, Naming.isNoWait_iff.mp (by decide)⟩, fun j lt field there noWait => ?_⟩
  cases Nat.lt_one_iff.mp lt
  cases there
  cases noWait.bit

/-- The octet in front and the bit behind say nothing. -/
theorem only_the_alias_counts :
    layout.isSynchronous [.octet 1, .bit false, .bit true] = true ∧
    layout.isSynchronous [.octet 0, .bit true, .bit false] = false ∧
    ∃ program path, (generate .names description config).1 =
        .ok (Program.artifacts program "framing_0_9_1" ⟨0, 9, 1⟩ path) ∧
      program.AsksRecords description := by
  obtain ⟨decides, asks⟩ := synchronous_unless_told_otherwise description
  have own := decides (delete.attach 50 "queue") layout rfl
  obtain ⟨artifacts, generated⟩ := exists_generated
  obtain ⟨program, path, -, -, same, -, table⟩ := asks .names config artifacts generated
  have named : description.version.artifactName config.artifactStem = "framing_0_9_1" := by
    decide +kernel
  refine ⟨(own.iff _ rfl).mpr ⟨rfl, .inr ⟨1, first, rfl⟩⟩, ?_, program, path, ?_, table⟩
  · rw [Bool.eq_false_iff, ne_eq, own.iff _ rfl]
    rintro ⟨-, none | ⟨i, first', told⟩⟩
    · exact first.not_none none
    · cases first.unique first'
      cases told
  · rw [generated, same, named]
    rfl

end QueueDelete

end WireProtocol
