import WireProtocol.Description.Load
import WireProtocol.Proofs.Description.Documents
import WireProtocol.Proofs.Description.Resolution

/-!
# Descriptions are what their documents say

* `FieldOutline.isIn_of_toField`, `MethodOutline.isIn_of_toMethod`, `ClassOutline.isIn_of_toClass`: a part
  that is made of an outline is in the document of the outline.
* `Description.ofOutline_eq_ok`: a description has what the parts of its outline mean, in order.
* `loaded_descriptions_are_faithful`: a text from which a description is loaded is its document, and its
  domains resolve by the aliases in the text.
-/

namespace WireProtocol

open Json (Tree IsNull)

/-! ## Single values -/

theorem spellsNatural_of_octetOf? {tree : Tree} {n : UInt8} (read : octetOf? tree = some n) :
    tree.SpellsNatural n.toNat := by
  obtain ⟨value, found, rfl⟩ := Option.map_eq_some_iff.mp read
  obtain ⟨spelled, small⟩ := Tree.spellsNatural_of_natural? found
  rwa [UInt8.toNat_ofNat_of_lt' small]

theorem spellsNatural_of_shortOf? {tree : Tree} {n : UInt16} (read : shortOf? tree = some n) :
    tree.SpellsNatural n.toNat := by
  obtain ⟨value, found, rfl⟩ := Option.map_eq_some_iff.mp read
  obtain ⟨spelled, small⟩ := Tree.spellsNatural_of_natural? found
  rwa [UInt16.toNat_ofNat_of_lt' small]

theorem spellsNatural_of_longOf? {tree : Tree} {n : UInt32} (read : longOf? tree = some n) :
    tree.SpellsNatural n.toNat := by
  obtain ⟨value, found, rfl⟩ := Option.map_eq_some_iff.mp read
  obtain ⟨spelled, small⟩ := Tree.spellsNatural_of_natural? found
  rwa [UInt32.toNat_ofNat_of_lt' small]

namespace Json

theorem required?_eq_some {α : Type} {read? : Tree → Option α} {written : Option Tree} {value : α}
    (read : required? read? written = some value) :
    ∃ tree, written = some tree ∧ read? tree = some value := by
  cases written with
  | none => cases read
  | some tree => exact ⟨tree, rfl, read⟩

theorem orDefault_of_bool? {written : Option Tree} {flag : Bool}
    (read : defaulted? false Tree.bool? written = some flag) :
    OrDefault false (fun tree flag => tree = .bool flag) written flag :=
  (orDefault_of_defaulted? read).imp fun _ _ => Tree.eq_bool_of_bool?

/-- What several parts are made of is their documents if that holds for each of them. -/
theorem orDefault_of_items? {α β : Type} {read? : Tree → Option α} {means : α → β → Prop}
    {document : Tree → β → Prop} {written : Option Tree} {outlines : List α} {parts : List β}
    (read : defaulted? [] (Tree.items? read?) written = some outlines)
    (made : List.Forall₂ means outlines parts)
    (each : ∀ tree outline part, read? tree = some outline → means outline part → document tree part) :
    OrDefault [] (Tree.IsArrayOf document) written parts := by
  cases orDefault_of_defaulted? read with
  | missing =>
    cases made
    exact .missing
  | written own =>
    obtain ⟨items, same, read⟩ := Tree.isArrayOf_of_items? own
    exact .written ⟨items, same, read.comp made each⟩

end Json

/-! ## Fields -/

namespace FieldOutline

/-- The field is what the outline means, wherever the field stands. -/
def Means (f : FieldOutline) (field : Field) : Prop :=
  ∃ made, f.toField = .ok made ∧ field.name = made.name ∧ field.domain = made.domain ∧
    field.default = made.default

theorem toField_eq_ok {f : FieldOutline} {field : Field} (made : f.toField = .ok field) :
    field.name = f.name ∧ f.domainName.or f.typeName = some field.domain ∧
      f.checkDefault = .ok field.default := by
  unfold toField at made
  split at made
  · cases made
  · next domain named =>
    obtain ⟨default, checked, same⟩ := Except.bind_eq_ok.mp made
    cases same
    exact ⟨rfl, named, checked⟩

theorem checkDefault_eq_ok {f : FieldOutline} {default : Option DefaultValue}
    (checked : f.checkDefault = .ok default) :
    f.default = none ∧ default = none ∨
      ∃ value own, f.default = some value ∧ DefaultValue.ofJson? value = some own ∧
        default = some own := by
  unfold checkDefault at checked
  split at checked
  · next none =>
    cases checked
    exact .inl ⟨none, rfl⟩
  · next value written =>
    split at checked
    · next own supported =>
      cases checked
      exact .inr ⟨value, own, written, supported, rfl⟩
    · cases checked

/-- What is read from the document of a field. -/
theorem of_ofTree? {depth : Nat} {tree : Tree} {f : FieldOutline} (read : ofTree? depth tree = some f) :
    ∃ typeName domain default,
      tree.record? keys = some [some (.text (some f.name)), typeName, domain, default] ∧
        Json.nullable? Tree.text? typeName = some f.typeName ∧
        Json.nullable? Tree.text? domain = some f.domainName ∧
        Json.nullable? (Json.Value.ofTree? (maxDepth - (depth + 1))) default = some f.default := by
  obtain ⟨values, found, read⟩ := Option.bind_eq_some_iff.mp read
  split at read
  · next name typeName domain default =>
    simp only [bind, Option.bind_eq_some_iff] at read
    obtain ⟨_, named, _, typed, _, aliased, _, defaulted, same⟩ := read
    cases same
    obtain ⟨own, rfl, text⟩ := Json.required?_eq_some named
    cases Tree.eq_text_of_text? text
    exact ⟨typeName, domain, default, found, typed, aliased, defaulted⟩
  · cases read

theorem isIn_of_means {depth : Nat} {tree : Tree} {f : FieldOutline} {field : Field}
    (read : ofTree? depth tree = some f) (means : f.Means field) : field.IsIn tree := by
  obtain ⟨made, made_of, name, domain, default⟩ := means
  obtain ⟨name', named, checked⟩ := toField_eq_ok made_of
  obtain ⟨typeTree, domainTree, defaultTree, found, typed, aliased, defaulted⟩ := of_ofTree? read
  refine ⟨typeTree, domainTree, defaultTree, by rw [found, name, name'], ?_⟩
  rw [← domain] at named
  rw [← default] at checked
  exact {
    named := by
      intro full
      rcases Json.nullable?_eq_some_iff.mp aliased with ⟨null, -⟩ | ⟨tree, own, rfl, -, text, found⟩
      · exact (full null).elim
      · rw [found] at named
        cases named
        rw [Tree.eq_text_of_text? text]
    typed := by
      intro null
      rw [(eq_none_iff aliased).mpr null, Option.none_or] at named
      rcases Json.nullable?_eq_some_iff.mp typed with ⟨-, none⟩ | ⟨tree, own, rfl, -, text, found⟩
      · cases none.symm.trans named
      · rw [found] at named
        cases named
        rw [Tree.eq_text_of_text? text]
    noDefault := by
      rw [← eq_none_iff defaulted]
      rcases checkDefault_eq_ok checked with ⟨unwritten, none⟩ | ⟨value, own, written, -, some⟩
      · exact iff_of_true none unwritten
      · rw [written, some]
        exact iff_of_false nofun nofun
    default := by
      intro default declared
      rcases checkDefault_eq_ok checked with ⟨-, none⟩ | ⟨value, own, written, supported, some⟩
      · cases none.symm.trans declared
      · cases some.symm.trans declared
        rcases Json.nullable?_eq_some_iff.mp defaulted with ⟨-, none⟩ | ⟨tree, value', rfl, -, read, same⟩
        · cases none.symm.trans written
        · cases same.symm.trans written
          exact ⟨tree, rfl, Tree.spellsValue_of_ofJson? read supported⟩ }

end FieldOutline

/-! ## Methods -/

namespace MethodOutline

/-- What is read from the document of a method. -/
theorem of_ofTree? {depth : Nat} {tree : Tree} {m : MethodOutline} (read : ofTree? depth tree = some m) :
    ∃ id synchronous content arguments,
      tree.record? keys = some [some id, some (.text (some m.name)), synchronous, content, arguments] ∧
        shortOf? id = some m.id ∧
        Json.defaulted? false Tree.bool? synchronous = some m.synchronous ∧
        Json.defaulted? false Tree.bool? content = some m.hasContent ∧
        Json.defaulted? [] (Tree.items? (FieldOutline.ofTree? (depth + 2))) arguments =
          some m.arguments := by
  obtain ⟨values, found, read⟩ := Option.bind_eq_some_iff.mp read
  split at read
  · next id name synchronous content arguments =>
    simp only [bind, Option.bind_eq_some_iff] at read
    obtain ⟨_, numbered, _, named, _, waits, _, carries, _, takes, same⟩ := read
    cases same
    obtain ⟨id, rfl, number⟩ := Json.required?_eq_some numbered
    obtain ⟨own, rfl, text⟩ := Json.required?_eq_some named
    cases Tree.eq_text_of_text? text
    exact ⟨id, synchronous, content, arguments, found, number, waits, carries, takes⟩
  · cases read

/-- The method is what the outline means, whatever class it belongs to. -/
structure Means (m : MethodOutline) (method : Method) : Prop where
  id : method.id = m.id
  name : method.name = m.name
  synchronous : method.synchronous = m.synchronous
  content : method.hasContent = m.hasContent
  arguments : List.Forall₂ FieldOutline.Means m.arguments method.arguments.toList

/-- Arguments are pushed one after the other. -/
theorem means_of_toMethod {m : MethodOutline} {method : Method} (made : m.toMethod = .ok method) :
    m.Means method := by
  refine Except.foldlM_induction (P := fun (before : List FieldOutline) (method : Method) =>
    MethodOutline.Means { m with arguments := before } method) made ⟨rfl, rfl, rfl, rfl, .nil⟩ ?_
  intro before f method next means pushed
  obtain ⟨field, field_of, same⟩ := Except.bind_eq_ok.mp pushed
  cases same
  exact { means with
    arguments := List.rel_append means.arguments (.cons ⟨field, field_of, rfl, rfl, rfl⟩ .nil) }

theorem isIn_of_means {depth : Nat} {tree : Tree} {m : MethodOutline} {c : Class} {method : Method}
    (read : ofTree? depth tree = some m) (means : m.Means method)
    (owned : method.classId = c.id ∧ method.className = c.name) : method.IsIn c tree := by
  obtain ⟨id, synchronous, content, arguments, found, number, waits, carries, takes⟩ := of_ofTree? read
  refine ⟨id, synchronous, content, arguments, by rw [found, means.name], ?_⟩
  exact {
    id := by
      rw [means.id]
      exact spellsNatural_of_shortOf? number
    synchronous := by
      rw [means.synchronous]
      exact Json.orDefault_of_bool? waits
    content := by
      rw [means.content]
      exact Json.orDefault_of_bool? carries
    arguments := Json.orDefault_of_items? takes means.arguments fun _ _ _ => FieldOutline.isIn_of_means
    numbered := fun _ _ => FieldList.index_of_getElem?
    owned }

end MethodOutline

/-! ## Classes -/

namespace ClassOutline

/-- What is read from the document of a class. -/
theorem of_ofTree? {depth : Nat} {tree : Tree} {c : ClassOutline} (read : ofTree? depth tree = some c) :
    ∃ id methods properties,
      tree.record? keys = some [some id, some (.text (some c.name)), methods, properties] ∧
        shortOf? id = some c.id ∧
        Json.defaulted? [] (Tree.items? (MethodOutline.ofTree? (depth + 2))) methods = some c.methods ∧
        Json.defaulted? [] (Tree.items? (FieldOutline.ofTree? (depth + 2))) properties =
          some c.properties := by
  obtain ⟨values, found, read⟩ := Option.bind_eq_some_iff.mp read
  split at read
  · next id name methods properties =>
    simp only [bind, Option.bind_eq_some_iff] at read
    obtain ⟨_, numbered, _, named, _, does, _, has, same⟩ := read
    cases same
    obtain ⟨id, rfl, number⟩ := Json.required?_eq_some numbered
    obtain ⟨own, rfl, text⟩ := Json.required?_eq_some named
    cases Tree.eq_text_of_text? text
    exact ⟨id, methods, properties, found, number, does, has⟩
  · cases read

/-- The class is what the outline means. -/
structure Means (c : ClassOutline) (made : Class) : Prop where
  id : made.id = c.id
  name : made.name = c.name
  properties : List.Forall₂ FieldOutline.Means c.properties made.properties.toList
  methods : List.Forall₂
    (fun m method => m.Means method ∧ method.classId = made.id ∧ method.className = made.name)
    c.methods made.methods

/-- Properties are pushed one after the other, and then methods. -/
theorem means_of_toClass {c : ClassOutline} {made : Class} (h : c.toClass = .ok made) :
    c.Means made := by
  obtain ⟨between, properties, methods⟩ := Except.bind_eq_ok.mp h
  have filled : ClassOutline.Means { c with methods := [] } between := by
    refine Except.foldlM_induction (P := fun before made =>
      ClassOutline.Means { c with properties := before, methods := [] } made) properties
      ⟨rfl, rfl, .nil, .nil⟩ ?_
    intro before f made next means pushed
    obtain ⟨field, field_of, same⟩ := Except.bind_eq_ok.mp pushed
    cases same
    exact { means with
      properties := List.rel_append means.properties (.cons ⟨field, field_of, rfl, rfl, rfl⟩ .nil) }
  refine Except.foldlM_induction (P := fun before made =>
    ClassOutline.Means { c with methods := before } made) methods filled ?_
  intro before m made next means attached
  obtain ⟨method, method_of, same⟩ := Except.bind_eq_ok.mp attached
  cases same
  have own := MethodOutline.means_of_toMethod method_of
  exact { means with
    methods := List.rel_append means.methods
      (.cons ⟨⟨own.id, own.name, own.synchronous, own.content, own.arguments⟩, rfl, rfl⟩ .nil) }

theorem isIn_of_means {depth : Nat} {tree : Tree} {c : ClassOutline} {made : Class}
    (read : ofTree? depth tree = some c) (means : c.Means made) : made.IsIn tree := by
  obtain ⟨id, methods, properties, found, number, does, has⟩ := of_ofTree? read
  refine ⟨id, methods, properties, by rw [found, means.name], ?_⟩
  exact {
    id := by
      rw [means.id]
      exact spellsNatural_of_shortOf? number
    methods := Json.orDefault_of_items? does means.methods
      fun _ _ _ read ⟨means, owned⟩ => MethodOutline.isIn_of_means read means owned
    properties := Json.orDefault_of_items? has means.properties fun _ _ _ => FieldOutline.isIn_of_means
    numbered := fun _ _ => FieldList.index_of_getElem? }

end ClassOutline

/-! ## Descriptions -/

namespace ConstantOutline

/-- The constant of an outline is in the document of the outline. -/
theorem isIn_of_toConstant {tree : Tree} {c : ConstantOutline} {constant : Constant}
    (read : ofTree? tree = some c) (made : c.toConstant = .ok constant) : constant.IsIn tree := by
  obtain ⟨values, found, read⟩ := Option.bind_eq_some_iff.mp read
  split at read
  · next name value tag =>
    simp only [bind, Option.bind_eq_some_iff] at read
    obtain ⟨_, named, _, numbered, _, tagged, same⟩ := read
    cases same
    obtain ⟨own, rfl, text⟩ := Json.required?_eq_some named
    obtain ⟨value, rfl, number⟩ := Json.required?_eq_some numbered
    cases Tree.eq_text_of_text? text
    unfold toConstant at made
    split at made
    · next known =>
      cases made
      exact ⟨value, tag, _, found, spellsNatural_of_longOf? number,
        (Json.orDefault_of_defaulted? tagged).imp fun _ _ => Tree.eq_text_of_text?,
        ErrorClass.ofTag?_eq_some_iff.mp known⟩
    · cases made
  · cases read

end ConstantOutline

namespace Outline

theorem eq_of_domainOf? {tree : Tree} {own : String × String} (read : domainOf? tree = some own) :
    tree = .array [.text (some own.1), .text (some own.2)] := by
  unfold domainOf? at read
  split at read
  · simp only [bind, Option.bind_eq_some_iff] at read
    obtain ⟨name, named, target, targeted, same⟩ := read
    cases same
    rw [Tree.eq_text_of_text? named, Tree.eq_text_of_text? targeted]
  · cases read

/-- What is read from the document of a description. -/
theorem of_ofTree? {tree : Tree} {o : Outline} (read : ofTree? tree = some o) :
    ∃ major minor revision port domains constants classes,
      tree.record? keys =
        some [some major, some minor, revision, some port, domains, constants, some classes] ∧
        octetOf? major = some o.major ∧ octetOf? minor = some o.minor ∧
        Json.defaulted? 0 octetOf? revision = some o.revision ∧ shortOf? port = some o.port ∧
        Json.defaulted? [] (Tree.items? domainOf?) domains = some o.domains ∧
        Json.defaulted? [] (Tree.items? ConstantOutline.ofTree?) constants = some o.constants ∧
        Tree.items? (ClassOutline.ofTree? 2) classes = some o.classes := by
  obtain ⟨values, found, read⟩ := Option.bind_eq_some_iff.mp read
  split at read
  · next major minor revision port domains constants classes =>
    simp only [bind, Option.bind_eq_some_iff] at read
    obtain ⟨_, high, _, low, _, revised, _, listens, _, named, _, coded, _, grouped, same⟩ := read
    cases same
    obtain ⟨major, rfl, high⟩ := Json.required?_eq_some high
    obtain ⟨minor, rfl, low⟩ := Json.required?_eq_some low
    obtain ⟨port, rfl, listens⟩ := Json.required?_eq_some listens
    obtain ⟨classes, rfl, grouped⟩ := Json.required?_eq_some grouped
    exact ⟨major, minor, revision, port, domains, constants, classes, found, high, low, revised, listens,
      named, coded, grouped⟩
  · cases read

/-- The description is what the outline means. -/
structure Means (o : Outline) (d : Description) : Prop where
  version : d.version = ⟨o.major, o.minor, o.revision⟩
  port : d.port = o.port
  domains : d.domains = o.domains.reverse
  constants : List.Forall₂ (fun c constant => c.toConstant = .ok constant) o.constants d.constants
  classes : List.Forall₂ ClassOutline.Means o.classes d.classes

theorem means_foldl (domains : List (String × String)) (d : Description) :
    domains.foldl (fun d (name, target) => d.withDomain name target) d =
      { d with domains := domains.reverse ++ d.domains } := by
  induction domains generalizing d with
  | nil => rfl
  | cons own domains ih =>
    rw [List.foldl_cons, ih, List.reverse_cons, List.append_assoc]
    rfl

/-- Domains are declared one after the other, then constants, and then classes. -/
theorem means_of_ofOutline {o : Outline} {d : Description} (h : Description.ofOutline o = .ok d) :
    o.Means d := by
  obtain ⟨between, constants, classes⟩ := Except.bind_eq_ok.mp h
  have filled : Outline.Means { o with classes := [] } between := by
    refine Except.foldlM_induction (P := fun before d =>
      Outline.Means { o with constants := before, classes := [] } d) constants ?_ ?_
    · rw [means_foldl]
      exact ⟨rfl, rfl, List.append_nil _, .nil, .nil⟩
    · intro before c d next means added
      obtain ⟨constant, made, same⟩ := Except.bind_eq_ok.mp added
      cases same
      exact { means with constants := List.rel_append means.constants (.cons made .nil) }
  refine Except.foldlM_induction (P := fun before d =>
    Outline.Means { o with classes := before } d) classes filled ?_
  intro before c d next means added
  obtain ⟨made, made_of, added⟩ := Except.bind_eq_ok.mp added
  unfold Description.withClass at added
  split at added
  · cases added
    exact { means with
      classes := List.rel_append means.classes (.cons (ClassOutline.means_of_toClass made_of) .nil) }
  · cases added

theorem isIn_of_means {tree : Tree} {o : Outline} {d : Description} (read : ofTree? tree = some o)
    (means : o.Means d) : d.IsIn tree o.domains := by
  obtain ⟨major, minor, revision, port, domains, constants, classes, found, high, low, revised, listens,
    named, coded, grouped⟩ := of_ofTree? read
  obtain ⟨items, same, read⟩ := Tree.isArrayOf_of_items? grouped
  refine ⟨major, minor, revision, port, domains, constants, classes, found, ?_⟩
  exact {
    major := by
      rw [means.version]
      exact spellsNatural_of_octetOf? high
    minor := by
      rw [means.version]
      exact spellsNatural_of_octetOf? low
    revision := by
      rw [means.version]
      have own := Json.orDefault_of_defaulted? revised
      generalize o.revision = revised at own
      cases own with
      | missing => exact .missing
      | written own => exact .written (spellsNatural_of_octetOf? own)
    port := by
      rw [means.port]
      exact spellsNatural_of_shortOf? listens
    domains := (Json.orDefault_of_defaulted? named).imp fun tree aliases own => by
      obtain ⟨items, same, read⟩ := Tree.isArrayOf_of_items? own
      exact ⟨items, same, read.imp fun _ _ => eq_of_domainOf?⟩
    constants := Json.orDefault_of_items? coded means.constants
      fun _ _ _ => ConstantOutline.isIn_of_toConstant
    classes := ⟨items, same, read.comp means.classes fun _ _ _ => ClassOutline.isIn_of_means⟩ }

end Outline

/-- A text from which a description is loaded is the document of the description: of its constants,
classes, methods, properties and arguments, in order, each with what is written of it. Its domains resolve
by the aliases of the document. -/
theorem loaded_descriptions_are_faithful {text : String} {d : Description}
    (loaded : Description.ofJson text = .ok d) :
    ∃ tree aliases, Json.parse? text = some tree ∧ d.IsIn tree aliases ∧ d.ResolvesBy aliases := by
  unfold Description.ofJson at loaded
  split at loaded
  · cases loaded
  · next o shaped =>
    obtain ⟨tree, parsed, read⟩ := Option.bind_eq_some_iff.mp shaped
    have means := Outline.means_of_ofOutline loaded
    exact ⟨tree, o.domains, parsed, Outline.isIn_of_means read means,
      Description.resolvesBy means.domains⟩

namespace AliasedDescription

/-- A text whose aliases repeat, stand for each other and hide the name of a wire type, with a property
that has a type and a null for its domain. -/
def text : String :=
  r#"[0,9,1,5672,[["flag","short"],["bit","octet"],["word","flag"],["flag","bit"]],[["A",541]],
[[60,"basic",[[10,"qos",true,false,[["size",null,"flag",8],["mode","bit",null,null]]]],
[["kind","bit",null,"x"]]]]]"#

theorem domains_text : ((Description.ofJson text).map (·.domains)).toOption =
    some [("flag", "bit"), ("word", "flag"), ("bit", "octet"), ("flag", "short")] := by
  decide +kernel

/-- The second target of a name counts, a name that is given another meaning loses its own, and what an
alias names is not taken for an alias again. -/
theorem aliased_description_is_faithful : ∃ d tree aliases, Description.ofJson text = .ok d ∧
    Json.parse? text = some tree ∧ d.IsIn tree aliases ∧ d.ResolvesBy aliases ∧
    d.resolve "flag" = .ok .bit ∧ d.resolve "bit" = .ok .octet ∧
    d.resolve "word" = .error (.unknownDomain "word") := by
  have domains := domains_text
  cases loaded : Description.ofJson text with
  | error e =>
    rw [loaded] at domains
    cases domains
  | ok d =>
    rw [loaded] at domains
    have given : d.domains = [("flag", "bit"), ("word", "flag"), ("bit", "octet"), ("flag", "short")] :=
      Option.some.inj domains
    obtain ⟨tree, aliases, parsed, own, resolves⟩ := loaded_descriptions_are_faithful loaded
    refine ⟨d, tree, aliases, rfl, parsed, own, resolves, ?_⟩
    rw [Description.resolve, Description.resolve, Description.resolve, Description.target,
      Description.target, Description.target, given]
    exact ⟨rfl, rfl, rfl⟩

end AliasedDescription

end WireProtocol
