import WireProtocol.Emit.Generate
import WireProtocol.Proofs.Correspondence
import WireProtocol.Proofs.Layout.Fields

/-!
# What a successful generation says about its description

* `Gen.Yields`: a generation ends with a value, whatever has been reported.
* `Gen.Yields.bind`, `Gen.Yields.mapM`: all of its steps do.
* `Gen.Yields.forall₂_of_mapM`, `Gen.Yields.map_eq`: what the values of steps for each member of a list say
  of the members.
* `exists_program`: the files of a generation are those of a program of the description.
* `generate_arguments`, `generate_properties`: the arguments of every method have types, and their
  defaults fit these; and the properties of every class have types.
* `generate_exceptions`: the constants make up a table of exceptions, from which code is made.
-/

namespace WireProtocol

namespace Gen

variable {α β γ : Type}

/-- The generation ends with the value, whatever has been reported before and on the way. -/
def Yields (gen : Gen α) (value : α) : Prop :=
  ∃ events events', ExceptT.run gen events = (.ok value, events')

namespace Yields

theorem of_run {gen : Gen α} {value : α} (h : gen.run.1 = .ok value) : gen.Yields value :=
  ⟨[], gen.run.2, Prod.ext h rfl⟩

theorem bind {step : Gen α} {next : α → Gen β} {value : β} (h : (step >>= next).Yields value) :
    ∃ first, step.Yields first ∧ (next first).Yields value := by
  obtain ⟨events, events', ran⟩ := h
  obtain ⟨first, between, ran, ran'⟩ := ExceptT.run_bind_eq_ok.mp ran
  exact ⟨first, ⟨events, between, ran⟩, ⟨between, events', ran'⟩⟩

theorem ofExcept {result : Except GenerateError α} {value : α}
    (h : (Gen.ofExcept result).Yields value) : result = .ok value := by
  obtain ⟨events, events', ran⟩ := h
  exact congrArg Prod.fst ran

theorem eq_of_pure {value value' : α} (h : (pure value : Gen α).Yields value') : value' = value := by
  obtain ⟨events, events', ran⟩ := h
  cases ran
  rfl

theorem ask {result : Except DescriptionError α} {value : α} (h : (Gen.ask result).Yields value) :
    result = .ok value :=
  Except.mapError_eq_ok.mp h.ofExcept

/-- A generation for each member of a list ends only if it does for each. -/
theorem mapM {step : α → Gen β} {xs : List α} {values : List β} (h : (xs.mapM step).Yields values) :
    ∀ x ∈ xs, ∃ value, (step x).Yields value := by
  induction xs generalizing values with
  | nil => exact fun _ => nofun
  | cons x xs ih =>
    rw [List.mapM_cons] at h
    obtain ⟨first, head, h⟩ := h.bind
    obtain ⟨others, tail, -⟩ := h.bind
    exact List.forall_mem_cons.mpr ⟨⟨first, head⟩, ih tail⟩

/-- The members of a list and the values of a step for each of them correspond. -/
theorem forall₂_of_mapM {step : α → Gen β} {xs : List α} {ys : List β} (h : (xs.mapM step).Yields ys) :
    List.Forall₂ (fun x y => (step x).Yields y) xs ys :=
  List.forall₂_of_mapM (P := Gen.Yields) eq_of_pure bind h

/-- A step for each member of a list says of its value what is known of the member. -/
theorem map_eq {step : α → Gen β} {g : β → γ} {k : α → γ} {xs : List α} {ys : List β}
    (h : (xs.mapM step).Yields ys) (each : ∀ x y, (step x).Yields y → g y = k x) :
    ys.map g = xs.map k :=
  (h.forall₂_of_mapM.imp fun x y made => (each x y made).symm).map_eq.symm

end Yields

end Gen

/-! ## Fields -/

namespace Description

variable {d : Description}

/-- The argument has a type, and its default fits it. -/
def Fits (d : Description) (field : Field) : Prop :=
  ∃ ty, d.fieldType field = .ok ty ∧
    ∀ default, field.default = some default → ∃ value, WireValue.ofDefault? ty default = some value

theorem fits_of_argument {owner : String} {field : Field} {code : Ident × Tokens × Tokens}
    (h : (Declarations.argument d owner field).Yields code) : d.Fits field := by
  obtain ⟨id, -, h⟩ := h.bind
  obtain ⟨ty, asked, h⟩ := h.bind
  obtain ⟨init, fitted, -⟩ := h.bind
  refine ⟨ty, asked.ask, fun default declared => ?_⟩
  have tokens := fitted.ofExcept
  rw [Declarations.defaultTokens, declared] at tokens
  cases fits : WireValue.ofDefault? ty default with
  | some value => exact ⟨value, rfl⟩
  | none =>
    simp only [fits] at tokens
    cases tokens

theorem fits_of_methodRecord {method : Method} {items : List Item}
    (h : (Declarations.methodRecord d method).Yields items) :
    ∀ field ∈ method.arguments.toList, d.Fits field := by
  obtain ⟨record, -, h⟩ := h.bind
  obtain ⟨arguments, emitted, -⟩ := h.bind
  intro field member
  obtain ⟨code, argument⟩ := emitted.mapM field member
  exact fits_of_argument argument

theorem fits_of_items {items : List Item} (h : (Declarations.items d).Yields items) :
    ∀ method ∈ d.methods, ∀ field ∈ method.arguments.toList, d.Fits field := by
  obtain ⟨constants, -, h⟩ := h.bind
  obtain ⟨records, emitted, -⟩ := h.bind
  intro method member
  obtain ⟨c, listed, inside⟩ := List.mem_flatMap.mp member
  obtain ⟨items, h⟩ := emitted.mapM c listed
  obtain ⟨-, -, h⟩ := h.bind
  obtain ⟨methods, emitted, -⟩ := h.bind
  obtain ⟨items, record⟩ := emitted.mapM method inside
  exact fits_of_methodRecord record

theorem resolves_of_propertiesRecord {c : Class} {item : Item}
    (h : (Declarations.propertiesRecord d c).Yields item) :
    ∀ field ∈ c.properties.toList, d.Resolves field := by
  obtain ⟨record, -, h⟩ := h.bind
  obtain ⟨properties, emitted, -⟩ := h.bind
  intro field member
  obtain ⟨code, property⟩ := emitted.mapM field member
  obtain ⟨id, -, property⟩ := property.bind
  obtain ⟨ty, asked, -⟩ := property.bind
  exact ⟨ty, asked.ask⟩

theorem resolves_of_items {items : List Item} (h : (Declarations.items d).Yields items) :
    ∀ c ∈ d.classes, ∀ field ∈ c.properties.toList, d.Resolves field := by
  obtain ⟨constants, -, h⟩ := h.bind
  obtain ⟨records, emitted, -⟩ := h.bind
  intro c member
  obtain ⟨items, h⟩ := emitted.mapM c member
  obtain ⟨-, -, h⟩ := h.bind
  obtain ⟨methods, -, h⟩ := h.bind
  obtain ⟨item, record, -⟩ := h.bind
  exact resolves_of_propertiesRecord record

end Description

/-! ## Generations -/

variable {grammar : PathGrammar} {d : Description} {config : Config} {artifacts : Artifacts}

/-- The files of a generation are those of a program of the description. -/
theorem exists_program
    (generated : (generate grammar d config).1 = .ok artifacts) :
    ∃ program path, (Program.ofDescription d).Yields program ∧ config.runtimePath grammar = .ok path ∧
      artifacts = program.artifacts (d.version.artifactName config.artifactStem) d.version path := by
  have h : (generateSteps grammar d config).Yields artifacts := .of_run generated
  obtain ⟨-, -, h⟩ := h.bind
  obtain ⟨path, found, h⟩ := h.bind
  obtain ⟨program, made, h⟩ := h.bind
  obtain ⟨-, -, h⟩ := h.bind
  exact ⟨program, path, made, found.ofExcept, h.eq_of_pure⟩

/-- Code is generated only if the arguments of all methods have types that their defaults fit. -/
theorem generate_arguments (generated : (generate grammar d config).1 = .ok artifacts) :
    ∀ method ∈ d.methods, ∀ field ∈ method.arguments.toList, d.Fits field := by
  obtain ⟨program, -, made, -, -⟩ := exists_program generated
  obtain ⟨declarations, emitted, -⟩ := made.bind
  exact Description.fits_of_items emitted

/-- Code is generated only if the properties of all classes have types. -/
theorem generate_properties (generated : (generate grammar d config).1 = .ok artifacts) :
    ∀ c ∈ d.classes, ∀ field ∈ c.properties.toList, d.Resolves field := by
  obtain ⟨program, -, made, -, -⟩ := exists_program generated
  obtain ⟨declarations, emitted, -⟩ := made.bind
  exact Description.resolves_of_items emitted

/-- Code is generated only if the constants make up a table of exceptions, and the code for looking
exceptions up comes from this table. -/
theorem generate_exceptions (generated : (generate grammar d config).1 = .ok artifacts) :
    ∃ program path table, (Program.ofDescription d).Yields program ∧ config.runtimePath grammar = .ok path ∧
      artifacts = program.artifacts (d.version.artifactName config.artifactStem) d.version path ∧
      ExceptionTable.ofConstants d.constants = .ok table ∧
      LookupCode.exceptions table <:+ program.definitions := by
  obtain ⟨program, path, made, found, same⟩ := exists_program generated
  refine ⟨program, path, ?_⟩
  obtain ⟨declarations, -, h⟩ := made.bind
  obtain ⟨methods, -, h⟩ := h.bind
  obtain ⟨properties, -, h⟩ := h.bind
  obtain ⟨lookups, looked, h⟩ := h.bind
  obtain ⟨table, collected, emitted⟩ := Except.bind_eq_ok.mp looked.ofExcept
  cases emitted
  refine ⟨table, made, found, same, Except.mapError_eq_ok.mp collected, ?_⟩
  rw [h.eq_of_pure]
  exact (List.suffix_append _ _).trans (List.suffix_append _ _)

end WireProtocol
