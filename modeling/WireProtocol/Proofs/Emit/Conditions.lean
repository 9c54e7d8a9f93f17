import WireProtocol.Emit.Generate
import WireProtocol.Proofs.Layout.Fields

/-!
# Conditions for a generation

* `Condition`: something that a description or the settings have to be like for code to be generated.
* `Condition.Fails`: the condition is not met, and what is reported then.
* `Description.conditions`: the conditions on a description, in the order in which they count.
* `Condition.failure?`: what is reported for a condition, computed.
-/

namespace WireProtocol

namespace DefaultValue

/-- The type has a place for the default: a truth value is a bit, a number is one, too, or fits the
width of an integer, and a text is a string. -/
def Fits : DefaultValue → WireType → Prop
  | bool _, ty => ty = .bit
  | int value, ty => ty = .bit ∧ value.toNat < 2 ∨
      ∃ width, ty.fixedWidth? = some width ∧ value.toNat < BigEndian.capacity width
  | text _, ty => ty = .shortstr ∨ ty = .longstr
  | emptyTable, ty => ty = .table

/-- The defaults that fit are those that stand for a value. -/
theorem fits_iff {default : DefaultValue} {ty : WireType} :
    default.Fits ty ↔ (WireValue.ofDefault? ty default).isSome = true := by
  cases default with
  | int value =>
    have below (bound : Nat) : (WireValue.below? bound value).isSome = true ↔ value.toNat < bound := by
      unfold WireValue.below?
      split <;> simp [*]
    cases ty with
    | bit =>
      have small : value.toNat < 2 ↔ value = 0 ∨ value = 1 := by
        rw [← UInt64.toNat_inj, ← UInt64.toNat_inj]
        change _ ↔ value.toNat = 0 ∨ value.toNat = 1
        omega
      simp only [Fits, true_and, WireType.fixedWidth?, reduceCtorEq, false_and, exists_false, or_false,
        WireValue.ofDefault?, WireValue.ofNumber?, small]
      split
      · simp [*]
      · split <;> simp [*]
    | octet | short | long =>
      simp [Fits, WireType.fixedWidth?, WireValue.ofDefault?, WireValue.ofNumber?, below,
        BigEndian.capacity, UInt8.size, UInt16.size, UInt32.size]
    | longlong | timestamp =>
      have bound := value.toNat_lt
      simpa [Fits, WireType.fixedWidth?, WireValue.ofDefault?, WireValue.ofNumber?,
        BigEndian.capacity] using bound
    | _ => simp [Fits, WireType.fixedWidth?, WireValue.ofDefault?, WireValue.ofNumber?]
  | text value => cases ty <;> simp [Fits, WireValue.ofDefault?, WireValue.ofText?]
  | bool value => cases ty <;> simp [Fits, WireValue.ofDefault?]
  | emptyTable => cases ty <;> simp [Fits, WireValue.ofDefault?]

end DefaultValue

theorem Description.fieldType_eq_ok {d : Description} {field : Field} {ty : WireType} :
    d.fieldType field = .ok ty ↔ WireType.ofName? (d.target field.domain) = some ty := by
  unfold fieldType resolve
  cases WireType.ofName? (d.target field.domain) <;> simp

/-- Something that a generation depends on. -/
inductive Condition where
  | runtimePath
  | name (spelling source : String)
  | domain (field : Field)
  | fit (owner : String) (field : Field) (default : DefaultValue)
  | fallback
  | replyCode (c : Constant)

namespace Condition

/-- The name of a constant becomes an identifier. -/
def constantName (c : Constant) : Condition :=
  name (Naming.constantName c.name) c.name

/-- The name of a field becomes an identifier. -/
def fieldName (field : Field) : Condition :=
  name (Naming.fieldName field.name) field.name

/-- The parts of a name become the identifier of a type. -/
def typeName (parts : List String) : Condition :=
  name (Words.pascal (Ident.joinParts parts)) (Ident.joinParts parts)

/-- The parts of a name become the identifier of a function. -/
def functionName (parts : List String) : Condition :=
  name (Naming.fieldName (Ident.joinParts parts)) (Ident.joinParts parts)

/-- The condition is not met, and the error tells which one and why. -/
inductive Fails (grammar : PathGrammar) (d : Description) (config : Config) : Condition → GenerateError → Prop
  | runtimePath (none : grammar.parse? (Text.trim config.runtimeCrate) = none) :
    Fails grammar d config runtimePath (.runtimePath config.runtimeCrate)
  | name {spelling source : String} (invalid : ¬ Ident.isName spelling) :
    Fails grammar d config (name spelling source) (.invalidName source)
  | domain {field : Field} (unknown : WireType.ofName? (d.target field.domain) = none) :
    Fails grammar d config (domain field) (.description (.unknownDomain field.domain))
  | fit {owner : String} {field : Field} {default : DefaultValue} {ty : WireType}
    (known : WireType.ofName? (d.target field.domain) = some ty) (misfit : ¬ default.Fits ty) :
    Fails grammar d config (fit owner field default) (.defaultMismatch owner field.name default ty)
  | fallback (none : ¬ ∃ c ∈ d.constants, c.errorClass = .hard ∧ c.displayName = "INTERNAL_ERROR") :
    Fails grammar d config fallback .missingFallback
  | replyCode {c : Constant} (large : UInt16.size ≤ c.code.toNat) :
    Fails grammar d config (replyCode c) (.constantOutOfRange c.name c.code)

/-- The condition is met. -/
def Holds (grammar : PathGrammar) (d : Description) (config : Config) (condition : Condition) : Prop :=
  ∀ e, ¬ condition.Fails grammar d config e

/-- The error for a condition that is not met. -/
def failure? (grammar : PathGrammar) (d : Description) (config : Config) : Condition → Option GenerateError
  | .runtimePath =>
    if (grammar.parse? (Text.trim config.runtimeCrate)).isSome then none
    else some (.runtimePath config.runtimeCrate)
  | .name spelling source => if Ident.isName spelling then none else some (.invalidName source)
  | .domain field =>
    if (WireType.ofName? (d.target field.domain)).isSome then none
    else some (.description (.unknownDomain field.domain))
  | .fit owner field default =>
    match WireType.ofName? (d.target field.domain) with
    | some ty =>
      if (WireValue.ofDefault? ty default).isSome then none
      else some (.defaultMismatch owner field.name default ty)
    | none => none
  | .fallback => if (ExceptionTable.fallback? d.constants).isSome then none else some .missingFallback
  | .replyCode c => if c.replyCode?.isSome then none else some (.constantOutOfRange c.name c.code)

variable {grammar : PathGrammar} {d : Description} {config : Config}

theorem failure?_eq_some_iff {condition : Condition} {e : GenerateError} :
    condition.failure? grammar d config = some e ↔ condition.Fails grammar d config e := by
  -- What is not met is decided in the same way on both sides.
  have guarded {p : Prop} [Decidable p] {reported : GenerateError} :
      (if p then none else some reported) = some e ↔ ¬ p ∧ reported = e := by
    by_cases h : p <;> simp [h]
  cases condition with
  | runtimePath =>
    rw [failure?, guarded, Option.not_isSome_iff_eq_none]
    constructor
    · rintro ⟨none, rfl⟩
      exact .runtimePath none
    · intro h
      cases h with
      | runtimePath none => exact ⟨none, rfl⟩
  | name spelling source =>
    rw [failure?, guarded]
    constructor
    · rintro ⟨invalid, rfl⟩
      exact .name invalid
    · intro h
      cases h with
      | name invalid => exact ⟨invalid, rfl⟩
  | domain field =>
    rw [failure?, guarded, Option.not_isSome_iff_eq_none]
    constructor
    · rintro ⟨unknown, rfl⟩
      exact .domain unknown
    · intro h
      cases h with
      | domain unknown => exact ⟨unknown, rfl⟩
  | fit owner field default =>
    rw [failure?]
    cases known : WireType.ofName? (d.target field.domain) with
    | none =>
      refine iff_of_false nofun fun h => ?_
      cases h with
      | fit known' => cases known.symm.trans known'
    | some ty =>
      simp only [← DefaultValue.fits_iff, guarded]
      constructor
      · rintro ⟨misfit, rfl⟩
        exact .fit known misfit
      · intro h
        cases h with
        | fit known' misfit =>
          cases known.symm.trans known'
          exact ⟨misfit, rfl⟩
  | fallback =>
    have found : (ExceptionTable.fallback? d.constants).isSome = true ↔
        ∃ c ∈ d.constants, c.errorClass = .hard ∧ c.displayName = "INTERNAL_ERROR" := by
      simp [ExceptionTable.fallback?, ExceptionTable.fallbackName, and_comm]
    rw [failure?, guarded, found]
    constructor
    · rintro ⟨none, rfl⟩
      exact .fallback none
    · intro h
      cases h with
      | fallback none => exact ⟨none, rfl⟩
  | replyCode c =>
    have large : ¬ c.replyCode?.isSome = true ↔ UInt16.size ≤ c.code.toNat := by
      rw [Constant.replyCode?, ← Nat.not_lt]
      by_cases small : c.code.toNat < UInt16.size
      · exact iff_of_false (by simp [small]) (not_not_intro small)
      · exact iff_of_true (by simp [small]) small
    rw [failure?, guarded, large]
    constructor
    · rintro ⟨large, rfl⟩
      exact .replyCode large
    · intro h
      cases h with
      | replyCode large => exact ⟨large, rfl⟩

theorem failure?_eq_none_iff {condition : Condition} :
    condition.failure? grammar d config = none ↔ condition.Holds grammar d config := by
  simp only [Holds, ← failure?_eq_some_iff, Option.eq_none_iff_forall_ne_some, ne_eq]

/-- The error for the first of several conditions that is not met. -/
def first? (grammar : PathGrammar) (d : Description) (config : Config) (conditions : List Condition) :
    Option GenerateError :=
  conditions.findSome? (failure? grammar d config)

theorem first?_eq_none_iff {conditions : List Condition} :
    first? grammar d config conditions = none ↔ ∀ condition ∈ conditions, condition.Holds grammar d config := by
  simp only [first?, List.findSome?_eq_none_iff, failure?_eq_none_iff]

theorem first?_append (conditions others : List Condition) :
    first? grammar d config (conditions ++ others) =
      (first? grammar d config conditions).or (first? grammar d config others) :=
  List.findSome?_append

theorem first?_cons (condition : Condition) (others : List Condition) :
    first? grammar d config (condition :: others) =
      (condition.failure? grammar d config).or (first? grammar d config others) :=
  List.findSome?_cons_eq_or _ condition others

theorem first?_map {α : Type} (f : α → Condition) (xs : List α) :
    first? grammar d config (xs.map f) = xs.findSome? fun x => (f x).failure? grammar d config :=
  List.findSome?_map

theorem first?_flatMap {α : Type} (f : α → List Condition) (xs : List α) :
    first? grammar d config (xs.flatMap f) = xs.findSome? fun x => first? grammar d config (f x) :=
  List.findSome?_flatMap f _ xs

end Condition

/-! ## The conditions on a description -/

namespace Condition

/-- An argument has a name and a type, and its default fits the type. -/
def ofArgument (owner : String) (field : Field) : List Condition :=
  fieldName field :: domain field :: field.default.toList.map (fit owner field)

/-- A property has a name and a type. -/
def ofProperty (field : Field) : List Condition :=
  [fieldName field, domain field]

/-- A method comes before its arguments. -/
def ofMethod (m : Method) : List Condition :=
  typeName [m.className, m.name] :: m.arguments.toList.flatMap (ofArgument m.qualifiedName)

/-- The record of the properties of a class comes before the properties. -/
def ofProperties (c : Class) : List Condition :=
  typeName [c.name, "properties"] :: c.properties.toList.flatMap ofProperty

/-- The methods of a class come before its properties. -/
def ofClass (c : Class) : List Condition :=
  c.methods.flatMap ofMethod ++ ofProperties c

/-- What the declarations depend on: the constants, the records, and the choice between the
classes. -/
def ofDeclarations (d : Description) : List Condition :=
  d.constants.map constantName ++
    (d.classes.flatMap ofClass ++ d.classes.map fun c => typeName [c.name])

/-- The functions of the methods, all decoders before the encoders. -/
def ofMethodCode (d : Description) : List Condition :=
  (d.methods.map fun m => functionName ["decode", m.className, m.name]) ++
    d.methods.map fun m => functionName ["encode", m.className, m.name]

/-- The functions of the properties, class by class. -/
def ofPropertyCode (d : Description) : List Condition :=
  d.classes.flatMap fun c =>
    [functionName ["decode", c.name, "properties"], functionName ["encode", c.name, "properties"]]

/-- What the exceptions depend on. -/
def ofExceptions (d : Description) : List Condition :=
  .fallback :: (d.constants.filter (·.errorClass.isException)).map .replyCode

end Condition

/-- The conditions for code to be generated, in the order in which they count. -/
def Description.conditions (d : Description) : List Condition :=
  .runtimePath :: (Condition.ofDeclarations d ++ (Condition.ofMethodCode d ++
    (Condition.ofPropertyCode d ++ Condition.ofExceptions d)))

end WireProtocol
