import Mathlib.Data.List.Perm.Basic
import WireProtocol.Proofs.Config.RuntimePath
import WireProtocol.Proofs.Emit.Spelling

/-!
# Names that clash

* `Description.NamesApart`: the names of a description differ, however they are spelled.
* `Description.constants_nodup_iff`, `Description.types_nodup_iff`, `Description.variants_nodup_iff`,
  `Description.functions_nodup_iff`, `Description.fields_nodup`: when the names made from them differ.
* `generated_names_decided`: the same for the two files of a generation.
-/

namespace WireProtocol

namespace Entity

def constant? : Entity → Option String
  | constant name => some name
  | _ => none

def type? : Entity → Option String
  | record name _ | choice name _ => some name
  | _ => none

def function? : Entity → Option String
  | function name => some name
  | _ => none

/-- The names of the constants among entities. -/
def constants (entities : List Entity) : List String :=
  entities.filterMap constant?

/-- The names of the types among entities. -/
def types (entities : List Entity) : List String :=
  entities.filterMap type?

/-- The names of the functions among entities. -/
def functions (entities : List Entity) : List String :=
  entities.filterMap function?

end Entity

/-! ## Names of a description -/

namespace Class

/-- What a class has a record for: its methods, and the properties. -/
def members (c : Class) : List String :=
  c.methods.map (·.name) ++ ["properties"]

/-- The members of a class behind its name, as types are spelled. -/
def typeSpellings (c : Class) : List String :=
  c.members.map fun member => Words.pascal (Ident.joinParts [c.name, member])

/-- The members of a class behind its name, as functions are spelled. -/
def functionSpellings (c : Class) : List String :=
  c.members.map fun member => Naming.fieldName (Ident.joinParts [c.name, member])

end Class

/-- No word that takes an underscore is in the list next to the word that has one. -/
def FieldList.Settled (fields : FieldList) : Prop :=
  ∀ word ∈ ["crate", "self", "super"], ∀ field ∈ fields.toList, ∀ other ∈ fields.toList,
    Naming.fieldName field.name = word → Naming.fieldName other.name ≠ word ++ "_"

namespace Description

/-- The lists of arguments and of properties. -/
def fieldLists (d : Description) : List FieldList :=
  d.classes.flatMap fun c => c.methods.map (·.arguments) ++ [c.properties]

/-- Names that are next to each other differ, even in small letters and with hyphens and spaces as
underscores. -/
structure NamesApart (d : Description) : Prop where
  classes : (d.classes.map fun c => Naming.fieldName c.name).Nodup
  methods : ∀ c ∈ d.classes, (c.methods.map fun m => Naming.fieldName m.name).Nodup
  fields : ∀ fields ∈ d.fieldLists,
    (fields.toList.map fun field => Naming.fieldName field.name).Nodup
  constants : (d.constants.map fun c => Naming.fieldName c.name).Nodup

variable {d : Description}

/-! ## Entities one by one -/

/-- The entities of a class are the records of its lists. -/
theorem record_of_mem_class {c : Class} {e : Entity} (member : e ∈ c.entities) :
    ∃ name, ∃ list ∈ c.methods.map (·.arguments) ++ [c.properties],
      e = .record name (list.toList.map fun field => Ident.fieldName field.name) := by
  rcases List.mem_append.mp member with method | properties
  · obtain ⟨m, listed, rfl⟩ := List.mem_map.mp method
    exact ⟨_, m.arguments, List.mem_append_left _ (List.mem_map.mpr ⟨m, listed, rfl⟩), rfl⟩
  · cases List.mem_singleton.mp properties
    exact ⟨_, c.properties, List.mem_append_right _ List.mem_cons_self, rfl⟩

/-- The choices between the types of a description, each with its variants. -/
def choices (d : Description) : List (String × List String) :=
  let methods := d.methods.map fun m => Ident.typeName [m.className, m.name]
  [("MethodName", methods), ("Method", methods),
    ("Properties", d.classes.map fun c => Ident.typeName [c.name])]

theorem typeEntities_eq (d : Description) : d.typeEntities =
    d.classes.flatMap Class.entities ++ d.choices.map fun choice => .choice choice.1 choice.2 :=
  rfl

theorem filterMap_typeEntities {p : Entity → Option String}
    (records : ∀ name fields, p (.record name fields) = none)
    (choices : ∀ name variants, p (.choice name variants) = none) :
    d.typeEntities.filterMap p = [] := by
  rw [typeEntities_eq, List.filterMap_eq_nil_iff]
  intro e member
  rcases List.mem_append.mp member with record | choice
  · obtain ⟨c, -, own⟩ := List.mem_flatMap.mp record
    obtain ⟨name, list, -, rfl⟩ := record_of_mem_class own
    exact records _ _
  · obtain ⟨made, -, rfl⟩ := List.mem_map.mp choice
    exact choices _ _

/-- An entity of a description is a record of one of its lists, one of the choices, or neither a
record nor a choice. -/
theorem cases_of_mem_entities {e : Entity} (member : e ∈ d.entities) :
    (∃ name, ∃ list ∈ d.fieldLists,
        e = .record name (list.toList.map fun field => Ident.fieldName field.name)) ∨
      (∃ choice ∈ d.choices, e = .choice choice.1 choice.2) ∨ e.type? = none := by
  rw [entities, typeEntities_eq, List.mem_append, List.mem_append, List.mem_append,
    List.mem_append] at member
  rcases member with ((fixed | declared) | record | choice) | function
  · have plain : ∀ e ∈ [Entity.constant "VERSION", .constant "PROTOCOL_PORT"], e.type? = none := by
      decide
    exact .inr (.inr (plain e fixed))
  · obtain ⟨c, -, rfl⟩ := List.mem_map.mp declared
    exact .inr (.inr rfl)
  · obtain ⟨c, listed, own⟩ := List.mem_flatMap.mp record
    obtain ⟨name, list, inside, rfl⟩ := record_of_mem_class own
    exact .inl ⟨name, list, List.mem_flatMap.mpr ⟨c, listed, inside⟩, rfl⟩
  · obtain ⟨made, listed, rfl⟩ := List.mem_map.mp choice
    exact .inr (.inl ⟨made, listed, rfl⟩)
  · obtain ⟨name, -, rfl⟩ := List.mem_map.mp function
    exact .inr (.inr rfl)

/-! ## Constants -/

theorem settle_constantName (name : String) : Ident.constantName name = Naming.constantName name := by
  refine Ident.settle_of_not_mem fun fixed => ?_
  have small : ∀ word ∈ Ident.fixedKeywords, 'e' ∈ word.toList := by decide
  exact Naming.not_small_of_mem_constantName (small _ fixed) (by decide)

theorem constants_entities (d : Description) : Entity.constants d.entities =
    ["VERSION", "PROTOCOL_PORT"] ++ d.constants.map fun c => Naming.constantName c.name := by
  have types : d.typeEntities.filterMap Entity.constant? = [] :=
    filterMap_typeEntities (fun _ _ => rfl) fun _ _ => rfl
  simp [Entity.constants, entities, types, Entity.constant?, Function.comp_def, settle_constantName]

/-- Constants clash with the two fixed ones at most. -/
theorem constants_nodup_iff (apart : d.NamesApart) :
    (Entity.constants d.entities).Nodup ↔
      ∀ c ∈ d.constants, Naming.constantName c.name ∉ ["VERSION", "PROTOCOL_PORT"] := by
  have declared : (d.constants.map fun c => Naming.constantName c.name).Nodup := by
    apply List.Nodup.of_map Naming.fieldName
    simpa [List.map_map, Function.comp_def, Naming.fieldName_constantName] using apart.constants
  rw [constants_entities, List.nodup_append, and_iff_right (by decide), and_iff_right declared]
  constructor
  · intro differ c listed fixed
    exact differ _ fixed _ (List.mem_map.mpr ⟨c, listed, rfl⟩) rfl
  · intro differ fixed member name listed same
    obtain ⟨c, declared, rfl⟩ := List.mem_map.mp listed
    exact differ c declared (same ▸ member)

/-! ## Types -/

theorem nodup_map_settle_iff {names : List String} (plain : ∀ name ∈ names, '_' ∉ name.toList) :
    (names.map Ident.settle).Nodup ↔ names.Nodup := by
  refine ⟨List.Nodup.of_map _, fun nodup => nodup.map_on fun name member other member' same => ?_⟩
  have marked (word : String) : '_' ∈ (word ++ "_").toList := by simp
  rcases Ident.eq_or_of_settle_eq same with eq | ⟨-, eq⟩ | ⟨-, eq⟩
  · exact eq
  · exact (plain other member' (eq ▸ marked name)).elim
  · exact (plain name member (eq ▸ marked other)).elim

theorem types_of_class (c : Class) :
    Entity.types c.entities = c.typeSpellings.map Ident.settle := by
  have methods : c.methods.map (fun m => Ident.typeName [m.className, m.name]) =
      c.methods.map fun m => Ident.typeName [c.name, m.name] :=
    List.map_congr_left fun m member => by rw [(c.attached m member).2]
  rw [Entity.types, Class.entities, List.filterMap_append, List.filterMap_map]
  have own : c.methods.filterMap (Entity.type? ∘ Method.entity) =
      c.methods.map fun m => Ident.typeName [c.name, m.name] := by
    rw [← methods, ← List.filterMap_eq_map]
    rfl
  rw [own, Class.typeSpellings, Class.members, List.map_append, List.map_append, List.map_map,
    List.map_map]
  simp only [Entity.type?, Ident.typeName, Function.comp_def, List.filterMap_cons,
    List.filterMap_nil, List.map_cons, List.map_nil]

theorem types_entities (d : Description) : Entity.types d.entities =
    (d.classes.flatMap Class.typeSpellings ++ ["MethodName", "Method", "Properties"]).map
      Ident.settle := by
  have records : d.classes.flatMap (fun c => c.entities.filterMap Entity.type?) =
      (d.classes.flatMap Class.typeSpellings).map Ident.settle := by
    rw [List.map_flatMap]
    exact congrArg (List.flatMap · _) (funext types_of_class)
  rw [List.map_append, ← records]
  have constants : (d.constants.map fun c => Entity.constant (Ident.constantName c.name)).filterMap
      Entity.type? = [] := by
    simp [Entity.type?]
  have functions (names : List String) : (names.map Entity.function).filterMap Entity.type? = [] := by
    simp [Entity.type?]
  rw [Entity.types, entities, typeEntities_eq]
  simp only [List.filterMap_append, List.filterMap_flatMap, constants, functions, List.append_nil]
  rfl

theorem types_nodup_iff (d : Description) : (Entity.types d.entities).Nodup ↔
    (d.classes.flatMap Class.typeSpellings ++ ["MethodName", "Method", "Properties"]).Nodup := by
  rw [types_entities]
  refine nodup_map_settle_iff fun name member => ?_
  rcases List.mem_append.mp member with spelled | fixed
  · obtain ⟨c, -, spelled⟩ := List.mem_flatMap.mp spelled
    obtain ⟨parts, -, rfl⟩ := List.mem_map.mp spelled
    exact Words.underscore_not_mem_pascal _
  · have plain : ∀ name ∈ ["MethodName", "Method", "Properties"], '_' ∉ name.toList := by decide
    exact plain name fixed

/-- The variants of a choice differ when the types that they stand for are spelled differently. -/
theorem variants_nodup_iff (d : Description) :
    (∀ name variants, Entity.choice name variants ∈ d.entities → variants.Nodup) ↔
      (d.methods.map fun m => Words.pascal (Ident.joinParts [m.className, m.name])).Nodup ∧
        (d.classes.map fun c => Words.pascal (Ident.joinParts [c.name])).Nodup := by
  have settled {α : Type} (xs : List α) (parts : α → List String) :
      (xs.map fun x => Ident.typeName (parts x)).Nodup ↔
        (xs.map fun x => Words.pascal (Ident.joinParts (parts x))).Nodup := by
    have plain : ∀ name ∈ xs.map fun x => Words.pascal (Ident.joinParts (parts x)),
        '_' ∉ name.toList :=
      List.forall_mem_map.mpr fun x _ => Words.underscore_not_mem_pascal _
    rw [← nodup_map_settle_iff plain, List.map_map]
    simp only [Ident.typeName, Function.comp_def]
  rw [← settled d.methods fun m => [m.className, m.name], ← settled d.classes fun c => [c.name]]
  constructor
  · intro differ
    have chosen (choice : String × List String) (listed : choice ∈ d.choices) :
        choice.2.Nodup := by
      refine differ choice.1 choice.2 ?_
      rw [entities, typeEntities_eq]
      simp [listed]
    exact ⟨chosen ("MethodName", _) (by simp only [choices, List.mem_cons, true_or]),
      chosen ("Properties", _) (by simp only [choices, List.mem_cons, true_or, or_true])⟩
  · rintro ⟨methods, classes⟩ name variants member
    rcases cases_of_mem_entities member with ⟨_, _, -, same⟩ | ⟨choice, listed, same⟩ | other
    · cases same
    · cases same
      simp only [choices, List.mem_cons, List.not_mem_nil, or_false] at listed
      rcases listed with rfl | rfl | rfl
      · exact methods
      · exact methods
      · exact classes
    · cases other

/-! ## Functions -/

/-- What the functions for members are named after: the fixed ones, and each member. -/
def functionStems (d : Description) : List String :=
  ["method_fields"] ++ ["properties"] ++ d.classes.flatMap Class.functionSpellings

theorem functions_entities (d : Description) :
    Entity.functions d.entities = d.methodFunctions ++ d.propertyFunctions ++ lookupFunctions := by
  have types : d.typeEntities.filterMap Entity.function? = [] :=
    filterMap_typeEntities (fun _ _ => rfl) fun _ _ => rfl
  have constants : (d.constants.map fun c => Entity.constant (Ident.constantName c.name)).filterMap
      Entity.function? = [] := by
    simp [Entity.function?]
  have functions (names : List String) :
      (names.map Entity.function).filterMap Entity.function? = names := by
    simp [Entity.function?, Function.comp_def]
  rw [Entity.functions, entities, List.filterMap_append, List.filterMap_append, List.filterMap_append,
    types, constants, functions]
  rfl

/-- The members of classes are the methods and the properties. -/
theorem functionSpellings_perm (d : Description) :
    (d.classes.flatMap Class.functionSpellings).Perm
      ((d.methods.map fun m => Naming.fieldName (Ident.joinParts [m.className, m.name])) ++
        d.classes.map fun c => Naming.fieldName (Ident.joinParts [c.name, "properties"])) := by
  have methods : (d.methods.map fun m => Naming.fieldName (Ident.joinParts [m.className, m.name])) =
      d.classes.flatMap fun c => c.methods.map fun m =>
        Naming.fieldName (Ident.joinParts [c.name, m.name]) := by
    rw [Description.methods, List.map_flatMap]
    refine congrArg (List.flatMap · _) (funext fun c => List.map_congr_left fun m member => ?_)
    rw [(c.attached m member).2]
  have members : d.classes.flatMap Class.functionSpellings = d.classes.flatMap fun c =>
      (c.methods.map fun m => Naming.fieldName (Ident.joinParts [c.name, m.name])) ++
        [Naming.fieldName (Ident.joinParts [c.name, "properties"])] := by
    refine congrArg (List.flatMap · _) (funext fun c => ?_)
    rw [Class.functionSpellings, Class.members, List.map_append, List.map_map]
    rfl
  rw [methods, members, List.map_eq_flatMap]
  exact (List.flatMap_append_perm _ _ _).symm

/-- The functions of a description are the fixed ones, a decoder and an encoder for each stem. -/
theorem functions_perm (d : Description) : (Entity.functions d.entities).Perm
    ((tableFunctions ++ lookupFunctions) ++
      (d.functionStems.map ("decode_" ++ ·) ++ d.functionStems.map ("encode_" ++ ·))) := by
  have decode (name other : String) : Ident.functionName ["decode", name, other] =
      "decode_" ++ Naming.fieldName (Ident.joinParts [name, other]) :=
    Ident.functionName_cons (by decide) name other
  have encode (name other : String) : Ident.functionName ["encode", name, other] =
      "encode_" ++ Naming.fieldName (Ident.joinParts [name, other]) :=
    Ident.functionName_cons (by decide) name other
  have fixed : propertyFunctions d = (["decode_properties"] ++ ["encode_properties"]) ++
      d.classes.flatMap fun c => [Ident.functionName ["decode", c.name, "properties"],
        Ident.functionName ["encode", c.name, "properties"]] := rfl
  -- Both sides are the same lists one behind the other, so that each name is counted alike.
  refine List.perm_iff_count.mpr fun name => ?_
  have decoders := ((functionSpellings_perm d).map ("decode_" ++ ·)).count_eq name
  have encoders := ((functionSpellings_perm d).map ("encode_" ++ ·)).count_eq name
  have pairs := (List.flatMap_append_perm d.classes
    (fun c => ["decode_" ++ Naming.fieldName (Ident.joinParts [c.name, "properties"])])
    (fun c => ["encode_" ++ Naming.fieldName (Ident.joinParts [c.name, "properties"])])).count_eq name
  rw [functions_entities, methodFunctions, fixed, functionStems]
  simp only [← List.map_eq_flatMap, List.singleton_append, List.map_append, List.map_map,
    List.count_append, Function.comp_def] at decoders encoders pairs
  simp only [decode, encode, List.map_append, List.map_cons, List.map_nil, List.count_append,
    String.reduceAppend]
  omega

theorem functions_nodup_iff_stems (d : Description) :
    (Entity.functions d.entities).Nodup ↔ d.functionStems.Nodup := by
  have marks : ∀ name ∈ tableFunctions ++ lookupFunctions,
      name.toList.take 2 ≠ ['d', 'e'] ∧ name.toList.take 2 ≠ ['e', 'n'] := by decide
  have decoder (stem : String) : ("decode_" ++ stem).toList.take 2 = ['d', 'e'] := by simp
  have encoder (stem : String) : ("encode_" ++ stem).toList.take 2 = ['e', 'n'] := by simp
  rw [(functions_perm d).nodup_iff]
  constructor
  · intro nodup
    have others := (List.nodup_append.mp nodup).2.1
    exact (List.nodup_append.mp others).1.of_map _
  · intro nodup
    have decoders : (d.functionStems.map ("decode_" ++ ·)).Nodup :=
      nodup.map fun stem other same => by simpa using same
    have encoders : (d.functionStems.map ("encode_" ++ ·)).Nodup :=
      nodup.map fun stem other same => by simpa using same
    refine List.nodup_append.mpr ⟨by decide,
      List.nodup_append.mpr ⟨decoders, encoders, ?_⟩, ?_⟩
    · intro name listed other listed' same
      obtain ⟨stem, -, rfl⟩ := List.mem_map.mp listed
      obtain ⟨stem', -, rfl⟩ := List.mem_map.mp listed'
      have marked := (decoder stem).symm.trans (same ▸ encoder stem')
      cases marked
    · intro name fixed other listed same
      subst same
      rcases List.mem_append.mp listed with listed | listed
      · obtain ⟨stem, -, rfl⟩ := List.mem_map.mp listed
        exact (marks _ fixed).1 (decoder stem)
      · obtain ⟨stem, -, rfl⟩ := List.mem_map.mp listed
        exact (marks _ fixed).2 (encoder stem)

theorem nodup_functionSpellings_iff {c : Class}
    (apart : (c.methods.map fun m => Naming.fieldName m.name).Nodup) :
    c.functionSpellings.Nodup ↔ ∀ m ∈ c.methods, Naming.fieldName m.name ≠ "properties" := by
  have behind : c.functionSpellings = ((c.methods.map fun m => Naming.fieldName m.name) ++
      ["properties"]).map (Naming.fieldName c.name ++ "_" ++ ·) := by
    have own : Naming.fieldName "properties" = "properties" := by decide
    simp [Class.functionSpellings, Class.members, Naming.fieldName_joinParts, Function.comp_def, own]
  have injective : Function.Injective (Naming.fieldName c.name ++ "_" ++ ·) := by
    intro name other same
    simpa using same
  rw [behind, List.nodup_map_iff injective, List.nodup_append, and_iff_right apart,
    and_iff_right (List.nodup_singleton _)]
  simp

theorem underscore_mem_functionSpellings {c : Class} {name : String}
    (member : name ∈ c.functionSpellings) : '_' ∈ name.toList := by
  obtain ⟨own, -, rfl⟩ := List.mem_map.mp member
  simp [Naming.fieldName_joinParts]

/-- Functions clash when a method is called like the properties of its class, or when members of two
classes are spelled alike behind the names of these. -/
theorem functions_nodup_iff (apart : d.NamesApart) : (Entity.functions d.entities).Nodup ↔
    (∀ m ∈ d.methods, Naming.fieldName m.name ≠ "properties") ∧
      (d.classes.Pairwise fun c c' => ∀ name ∈ c.functionSpellings, name ∉ c'.functionSpellings) ∧
      ∀ c ∈ d.classes, "method_fields" ∉ c.functionSpellings := by
  have members : (∀ c ∈ d.classes, c.functionSpellings.Nodup) ↔
      ∀ m ∈ d.methods, Naming.fieldName m.name ≠ "properties" := by
    rw [methods, List.forall_mem_flatMap]
    exact forall₂_congr fun c listed => nodup_functionSpellings_iff (apart.methods c listed)
  have properties : "properties" ∉ d.classes.flatMap Class.functionSpellings := by
    intro listed
    obtain ⟨c, -, own⟩ := List.mem_flatMap.mp listed
    exact absurd (underscore_mem_functionSpellings own) (by decide)
  have fixed : "method_fields" ∉ "properties" :: d.classes.flatMap Class.functionSpellings ↔
      ∀ c ∈ d.classes, "method_fields" ∉ c.functionSpellings := by
    simp
  rw [functions_nodup_iff_stems, functionStems, List.append_assoc, List.singleton_append,
    List.singleton_append, List.nodup_cons, List.nodup_cons, and_iff_right properties,
    List.nodup_flatMap, members, fixed]
  constructor
  · rintro ⟨outside, own, disjoint⟩
    exact ⟨own, disjoint, outside⟩
  · rintro ⟨own, disjoint, outside⟩
    exact ⟨outside, own, disjoint⟩

/-! ## Fields -/

/-- The fields of a record differ unless a word that takes an underscore meets its own like. -/
theorem fields_nodup (apart : d.NamesApart) {name : String} {fields : List String}
    (declared : Entity.record name fields ∈ d.entities) :
    ∃ list ∈ d.fieldLists, fields = list.toList.map (fun field => Ident.fieldName field.name) ∧
      (list.Settled → fields.Nodup) := by
  rcases cases_of_mem_entities declared with ⟨_, list, listed, same⟩ | ⟨choice, -, same⟩ | other
  · cases same
    refine ⟨list, listed, rfl, fun settled => ?_⟩
    have spelled := apart.fields list listed
    have names : list.toList.map (fun field => Ident.fieldName field.name) =
        (list.toList.map fun field => Naming.fieldName field.name).map Ident.settle := by
      rw [List.map_map]
      rfl
    rw [names]
    refine spelled.map_on fun name member other member' same => ?_
    obtain ⟨field, own, rfl⟩ := List.mem_map.mp member
    obtain ⟨field', own', rfl⟩ := List.mem_map.mp member'
    rcases Ident.eq_or_of_settle_eq same with eq | ⟨fixed, eq⟩ | ⟨fixed, eq⟩
    · exact eq
    · exact (settled _ (Ident.mem_of_fieldName_mem fixed) field own field' own' rfl eq).elim
    · exact (settled _ (Ident.mem_of_fieldName_mem fixed) field' own' field own rfl eq).elim
  · cases same
  · cases other

/-- What decides whether entities share names. Constants clash with the fixed ones only. Types clash
when they are spelled alike, and so do the variants of a choice. Functions clash when a method is
called like the properties of its class, when members of two classes are spelled alike, or when a
member is spelled like a fixed one. Fields of a record differ, as long as no word that takes an
underscore meets the word that has one. -/
structure NamesDecided (d : Description) (entities : List Entity) : Prop where
  constants : (Entity.constants entities).Nodup ↔
    ∀ c ∈ d.constants, Naming.constantName c.name ∉ ["VERSION", "PROTOCOL_PORT"]
  types : (Entity.types entities).Nodup ↔
    (d.classes.flatMap Class.typeSpellings ++ ["MethodName", "Method", "Properties"]).Nodup
  functions : (Entity.functions entities).Nodup ↔
    (∀ m ∈ d.methods, Naming.fieldName m.name ≠ "properties") ∧
      (d.classes.Pairwise fun c c' => ∀ name ∈ c.functionSpellings, name ∉ c'.functionSpellings) ∧
      ∀ c ∈ d.classes, "method_fields" ∉ c.functionSpellings
  variants : (∀ name variants, Entity.choice name variants ∈ entities → variants.Nodup) ↔
    (d.methods.map fun m => Words.pascal (Ident.joinParts [m.className, m.name])).Nodup ∧
      (d.classes.map fun c => Words.pascal (Ident.joinParts [c.name])).Nodup
  fields : ∀ name fields, Entity.record name fields ∈ entities →
    ∃ list ∈ d.fieldLists, fields = list.toList.map (fun field => Ident.fieldName field.name) ∧
      (list.Settled → fields.Nodup)

end Description

/-- Where the names next to each other in a description differ, the spellings of the names made from
them decide which names clash in the two files of a generation. -/
theorem generated_names_decided {grammar : PathGrammar} {d : Description} {config : Config} {artifacts : Artifacts}
    (apart : d.NamesApart) (generated : (generate grammar d config).1 = .ok artifacts) :
    ∃ program path, (Program.ofDescription d).Yields program ∧ config.runtimePath grammar = .ok path ∧
      artifacts = program.artifacts (d.version.artifactName config.artifactStem) d.version path ∧
      d.NamesDecided program.entities := by
  obtain ⟨program, path, made, found, same⟩ := exists_program generated
  refine ⟨program, path, made, found, same, ?_⟩
  rw [Program.entities_of_yields made]
  exact ⟨d.constants_nodup_iff apart, d.types_nodup_iff, d.functions_nodup_iff apart,
    d.variants_nodup_iff, fun name fields => d.fields_nodup apart⟩

namespace JoinedWords

/-- A class with the method `b-c`, and another class with the method `c`. -/
def description (second : String) : Description :=
  { Description.new ⟨0, 9, 1⟩ 5672 with
    constants := [⟨"internal-error", 541, .hard⟩]
    classes := [(Class.new 10 "a").withMethod ((Method.new 10 "b-c").withArgument
        (.new "self" "bit" none)), (Class.new 20 second).withMethod (.new 10 "c")]
    bounded := by simp [Class.withMethod, Class.new, FieldList.empty, FieldList.length] }

def config : Config := ⟨"rt", "framing"⟩

theorem names_apart (second : String) (h : second = "d" ∨ second = "a-b") :
    (description second).NamesApart := by
  rcases h with rfl | rfl <;> constructor <;> decide +kernel

theorem exists_artifacts (second : String) (h : second = "d" ∨ second = "a-b") :
    ∃ artifacts, (generate .names (description second) config).1 = .ok artifacts := by
  have complete : (generate .names (description second) config).1.isOk = true := by
    unfold generate generateSteps
    rw [Config.runtimePath_of_rt rfl]
    rcases h with rfl | rfl <;> decide +kernel
  exact Except.exists_eq_ok_of_isOk complete

/-- Nothing clashes when the second class is called `d`. -/
theorem names_differ : ∃ artifacts, (generate .names (description "d") config).1 = .ok artifacts ∧
    ∃ program, (Program.ofDescription (description "d")).Yields program ∧
      (Entity.constants program.entities).Nodup ∧ (Entity.types program.entities).Nodup ∧
      (Entity.functions program.entities).Nodup ∧
      ∀ name variants, Entity.choice name variants ∈ program.entities → variants.Nodup := by
  obtain ⟨artifacts, generated⟩ := exists_artifacts "d" (.inl rfl)
  obtain ⟨program, path, made, -, -, decided⟩ :=
    generated_names_decided (names_apart "d" (.inl rfl)) generated
  refine ⟨artifacts, generated, program, made, decided.constants.mpr ?_, decided.types.mpr ?_,
    decided.functions.mpr ?_, decided.variants.mpr ?_⟩
  all_goals decide +kernel

/-- The method `c` of the class `a-b` clashes with the method `b-c` of the class `a`, although no
two names next to each other are alike. -/
theorem names_clash : (description "a-b").NamesApart ∧
    ∃ artifacts program path, (generate .names (description "a-b") config).1 = .ok artifacts ∧
      (Program.ofDescription (description "a-b")).Yields program ∧
      artifacts = program.artifacts "framing_0_9_1" ⟨0, 9, 1⟩ path ∧
      ¬ (Entity.types program.entities).Nodup ∧ ¬ (Entity.functions program.entities).Nodup ∧
      ∃ name variants, Entity.choice name variants ∈ program.entities ∧ ¬ variants.Nodup := by
  obtain ⟨artifacts, generated⟩ := exists_artifacts "a-b" (.inr rfl)
  obtain ⟨program, path, made, -, same⟩ := exists_program generated
  refine ⟨names_apart "a-b" (.inr rfl), artifacts, program, path, generated, made, ?_⟩
  rw [Program.entities_of_yields made]
  refine ⟨same, ?_, ?_, "MethodName", ["ABC", "ABC"], ?_, ?_⟩
  all_goals decide +kernel

end JoinedWords

end WireProtocol
