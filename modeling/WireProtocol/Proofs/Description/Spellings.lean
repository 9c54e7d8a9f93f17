import Mathlib.Data.List.Nodup
import Mathlib.Logic.Relation
import WireProtocol.Description.Load
import WireProtocol.Proofs.Json.Records

/-!
# Spellings of descriptions

* `RecordKind`, `RecordKind.entries`: the records of a document, and what they have under their keys.
* `Respells`: one document says in other words what the other one says.
* `RecordEntry.MayStand`: values under a key that are read alike.
* `RecordKind.Same`, `Respells.same`: documents that say the same are read alike.
* `respelled_descriptions_load_alike`: so descriptions in them are loaded alike.
-/

namespace WireProtocol

open Json (Alike Key Tree)

/-! ## Records -/

/-- The shapes of the records in the document of a description. -/
inductive RecordKind where
  | description
  | constant
  | methodClass
  | method
  | field

/-- A key of a record, what may be written instead of leaving it out, and which records the array under the
key consists of. -/
structure RecordEntry where
  key : Key
  fallback : Option Tree
  part : Option RecordKind

namespace RecordKind

/-- The digit zero. -/
def zero : Tree :=
  .number ⟨false, [0], [], none⟩

/-- The keys of a record, in order. -/
def entries : RecordKind → List RecordEntry
  | description => [
    ⟨⟨"major-version", .required⟩, none, none⟩,
    ⟨⟨"minor-version", .required⟩, none, none⟩,
    ⟨⟨"revision", .defaulted⟩, some zero, none⟩,
    ⟨⟨"port", .required⟩, none, none⟩,
    ⟨⟨"domains", .defaulted⟩, some (.array []), none⟩,
    ⟨⟨"constants", .defaulted⟩, some (.array []), some constant⟩,
    ⟨⟨"classes", .required⟩, none, some methodClass⟩]
  | constant => [
    ⟨⟨"name", .required⟩, none, none⟩,
    ⟨⟨"value", .required⟩, none, none⟩,
    ⟨⟨"class", .defaulted⟩, some (.text (some "")), none⟩]
  | methodClass => [
    ⟨⟨"id", .required⟩, none, none⟩,
    ⟨⟨"name", .required⟩, none, none⟩,
    ⟨⟨"methods", .defaulted⟩, some (.array []), some method⟩,
    ⟨⟨"properties", .defaulted⟩, some (.array []), some field⟩]
  | method => [
    ⟨⟨"id", .required⟩, none, none⟩,
    ⟨⟨"name", .required⟩, none, none⟩,
    ⟨⟨"synchronous", .defaulted⟩, some (.bool false), none⟩,
    ⟨⟨"content", .defaulted⟩, some (.bool false), none⟩,
    ⟨⟨"arguments", .defaulted⟩, some (.array []), some field⟩]
  | field => [
    ⟨⟨"name", .required⟩, none, none⟩,
    ⟨⟨"type", .nullable⟩, some .null, none⟩,
    ⟨⟨"domain", .nullable⟩, some .null, none⟩,
    ⟨⟨"default-value", .nullable⟩, some .null, none⟩]

variable {kind : RecordKind} {entry other : RecordEntry}

/-- What is required cannot be left out. -/
theorem optional_of_fallback {value : Tree} (known : entry ∈ kind.entries)
    (fallback : entry.fallback = some value) : entry.key.presence ≠ .required := by
  have each : ∀ entry ∈ kind.entries, entry.key.presence = .required → entry.fallback = none := by
    cases kind <;> simp [entries]
  intro required
  rw [each entry known required] at fallback
  cases fallback

/-- A record has no two keys of one name. -/
theorem entry_eq_of_name (known : entry ∈ kind.entries) (known' : other ∈ kind.entries)
    (same : entry.key.name = other.key.name) : entry = other := by
  have nodup : (kind.entries.map (·.key.name)).Nodup := by
    cases kind <;> decide
  exact List.inj_on_of_nodup_map nodup known known' same

end RecordKind

/-! ## Other words for the same -/

/-- The item is what the object has under the key, or what may be written there if it has nothing. -/
def RecordEntry.Supplies (members : List (String × Tree)) (entry : RecordEntry) (item : Tree) : Prop :=
  entry.key.values members = [item] ∨ entry.key.values members = [] ∧ entry.fallback = some item

/-- The second record of the kind is the first one with its members in another order; with one more member,
whose name is no key, or which is written instead of being left out; as the array of its values; or with
another spelling of a record inside. -/
inductive Respells : RecordKind → Tree → Tree → Prop
  | reordered {kind : RecordKind} {members members' : List (String × Tree)} (same : members.Perm members') :
      Respells kind (.ofMembers members) (.ofMembers members')
  | ignored {kind : RecordKind} {members : List (String × Tree)} {name : String} {value : Tree}
      (unknown : ∀ entry ∈ kind.entries, entry.key.name ≠ name) :
      Respells kind (.ofMembers members) (.ofMembers ((name, value) :: members))
  | written {kind : RecordKind} {members : List (String × Tree)} {entry : RecordEntry} {value : Tree}
      (known : entry ∈ kind.entries) (missing : entry.key.values members = [])
      (fallback : entry.fallback = some value) :
      Respells kind (.ofMembers members) (.ofMembers ((entry.key.name, value) :: members))
  | positional {kind : RecordKind} {members : List (String × Tree)} {items : List Tree}
      (each : List.Forall₂ (RecordEntry.Supplies members) kind.entries items) :
      Respells kind (.ofMembers members) (.array items)
  | member {kind part : RecordKind} {front behind : List (String × Tree)} {entry : RecordEntry}
      {before after : List Tree} {record record' : Tree} (known : entry ∈ kind.entries)
      (records : entry.part = some part) (inner : Respells part record record') :
      Respells kind
        (.ofMembers (front ++ (entry.key.name, .array (before ++ record :: after)) :: behind))
        (.ofMembers (front ++ (entry.key.name, .array (before ++ record' :: after)) :: behind))
  | place {kind part : RecordKind} {front behind : List Tree} {entry : RecordEntry}
      {before after : List Tree} {record record' : Tree}
      (known : kind.entries[front.length]? = some entry) (records : entry.part = some part)
      (inner : Respells part record record') :
      Respells kind
        (.array (front ++ .array (before ++ record :: after) :: behind))
        (.array (front ++ .array (before ++ record' :: after) :: behind))

/-! ## What is read -/

namespace RecordKind

/-- The documents are read alike, wherever they stand. -/
def Same : RecordKind → Tree → Tree → Prop
  | description, tree, tree' => Outline.ofTree? tree = Outline.ofTree? tree'
  | constant, tree, tree' => ConstantOutline.ofTree? tree = ConstantOutline.ofTree? tree'
  | methodClass, tree, tree' => ∀ depth, ClassOutline.ofTree? depth tree = ClassOutline.ofTree? depth tree'
  | method, tree, tree' => ∀ depth, MethodOutline.ofTree? depth tree = MethodOutline.ofTree? depth tree'
  | field, tree, tree' => ∀ depth, FieldOutline.ofTree? depth tree = FieldOutline.ofTree? depth tree'

end RecordKind

namespace RecordEntry

/-- What the second record has under the key is what the first one has, or what is written instead of
nothing, or an array in which one record is another one that is read alike. -/
inductive MayStand (entry : RecordEntry) : Option Tree → Option Tree → Prop
  | same (value : Option Tree) : MayStand entry value value
  | written {value : Tree} (fallback : entry.fallback = some value) : MayStand entry none (some value)
  | inside {part : RecordKind} {before after : List Tree} {record record' : Tree}
      (records : entry.part = some part) (same : part.Same record record') :
      MayStand entry (some (.array (before ++ record :: after))) (some (.array (before ++ record' :: after)))

/-- Values that may stand for each other are read alike if what is written instead of nothing is read like
nothing, and records are read like others that are. -/
theorem MayStand.read_eq {β : Type} {entry : RecordEntry} {value value' : Option Tree}
    (h : entry.MayStand value value') (read : Option Tree → Option β)
    (written : ∀ value ∈ entry.fallback, read none = read (some value))
    (inside : ∀ part ∈ entry.part, ∀ before record record' after, part.Same record record' →
      read (some (.array (before ++ record :: after))) = read (some (.array (before ++ record' :: after)))) :
    read value = read value' := by
  cases h with
  | same => rfl
  | written fallback => exact written _ fallback
  | inside records same => exact inside _ records _ _ _ _ same

end RecordEntry

theorem Json.Tree.items?_congr {β : Type} {read? : Tree → Option β} {before after : List Tree}
    {record record' : Tree} (same : read? record = read? record') :
    (Tree.array (before ++ record :: after)).items? read? =
      (Tree.array (before ++ record' :: after)).items? read? := by
  simp [items?, same]

namespace RecordEntry.MayStand

variable {β : Type} {key : Key} {value value' : Option Tree}

/-- What has to be there is read alike. -/
theorem required_eq (h : MayStand ⟨key, none, none⟩ value value') (read? : Tree → Option β) :
    Json.required? read? value = Json.required? read? value' :=
  h.read_eq _ nofun nofun

/-- What has a default is read alike if the default is read where nothing is written. -/
theorem defaulted_eq {written : Tree} {default : β} (h : MayStand ⟨key, some written, none⟩ value value')
    (read? : Tree → Option β) (own : read? written = some default) :
    Json.defaulted? default read? value = Json.defaulted? default read? value' := by
  refine h.read_eq _ ?_ nofun
  rintro _ ⟨⟩
  exact own.symm

theorem nullable_eq (h : MayStand ⟨key, some .null, none⟩ value value') (read? : Tree → Option β) :
    Json.nullable? read? value = Json.nullable? read? value' := by
  refine h.read_eq _ ?_ nofun
  rintro _ ⟨⟩
  rfl

/-- Records that are read alike may stand in an array for each other. -/
theorem items_eq {part : RecordKind} (h : MayStand ⟨key, some (.array []), some part⟩ value value')
    (read? : Tree → Option β)
    (alike : ∀ record record', part.Same record record' → read? record = read? record') :
    Json.defaulted? [] (Tree.items? read?) value = Json.defaulted? [] (Tree.items? read?) value' := by
  refine h.read_eq _ ?_ ?_
  · rintro _ ⟨⟩
    rfl
  · rintro _ ⟨⟩ before record record' after same
    exact Tree.items?_congr (alike _ _ same)

theorem requiredItems_eq {part : RecordKind} (h : MayStand ⟨key, none, some part⟩ value value')
    (read? : Tree → Option β)
    (alike : ∀ record record', part.Same record record' → read? record = read? record') :
    Json.required? (Tree.items? read?) value = Json.required? (Tree.items? read?) value' := by
  refine h.read_eq _ nofun ?_
  rintro _ ⟨⟩ before record record' after same
  exact Tree.items?_congr (alike _ _ same)

end RecordEntry.MayStand

namespace RecordKind

variable {tree tree' : Tree}

theorem same_field (alike : Option.Rel (Alike RecordEntry.MayStand field.entries)
    (tree.record? FieldOutline.keys) (tree'.record? FieldOutline.keys)) : field.Same tree tree' := by
  intro depth
  rw [FieldOutline.ofTree?, FieldOutline.ofTree?]
  generalize tree.record? FieldOutline.keys = values, tree'.record? FieldOutline.keys = values' at alike ⊢
  cases alike with
  | none => rfl
  | some alike =>
    obtain - | ⟨name, - | ⟨typeName, - | ⟨domain, - | ⟨default, ⟨⟩⟩⟩⟩⟩ := alike
    simp only [Option.bind_eq_bind, Option.bind_some, name.required_eq, typeName.nullable_eq,
      domain.nullable_eq, default.nullable_eq]

theorem same_method (alike : Option.Rel (Alike RecordEntry.MayStand method.entries)
    (tree.record? MethodOutline.keys) (tree'.record? MethodOutline.keys)) : method.Same tree tree' := by
  intro depth
  rw [MethodOutline.ofTree?, MethodOutline.ofTree?]
  generalize tree.record? MethodOutline.keys = values, tree'.record? MethodOutline.keys = values' at alike ⊢
  cases alike with
  | none => rfl
  | some alike =>
    obtain - | ⟨id, - | ⟨name, - | ⟨synchronous, - | ⟨content, - | ⟨arguments, ⟨⟩⟩⟩⟩⟩⟩ := alike
    simp only [Option.bind_eq_bind, Option.bind_some, id.required_eq, name.required_eq,
      synchronous.defaulted_eq Tree.bool? rfl, content.defaulted_eq Tree.bool? rfl,
      arguments.items_eq (FieldOutline.ofTree? (depth + 2)) fun _ _ same => same (depth + 2)]

theorem same_methodClass (alike : Option.Rel (Alike RecordEntry.MayStand methodClass.entries)
    (tree.record? ClassOutline.keys) (tree'.record? ClassOutline.keys)) : methodClass.Same tree tree' := by
  intro depth
  rw [ClassOutline.ofTree?, ClassOutline.ofTree?]
  generalize tree.record? ClassOutline.keys = values, tree'.record? ClassOutline.keys = values' at alike ⊢
  cases alike with
  | none => rfl
  | some alike =>
    obtain - | ⟨id, - | ⟨name, - | ⟨methods, - | ⟨properties, ⟨⟩⟩⟩⟩⟩ := alike
    simp only [Option.bind_eq_bind, Option.bind_some, id.required_eq, name.required_eq,
      methods.items_eq (MethodOutline.ofTree? (depth + 2)) fun _ _ same => same (depth + 2),
      properties.items_eq (FieldOutline.ofTree? (depth + 2)) fun _ _ same => same (depth + 2)]

theorem same_constant (alike : Option.Rel (Alike RecordEntry.MayStand constant.entries)
    (tree.record? ConstantOutline.keys) (tree'.record? ConstantOutline.keys)) :
    constant.Same tree tree' := by
  rw [Same, ConstantOutline.ofTree?, ConstantOutline.ofTree?]
  generalize tree.record? ConstantOutline.keys = values,
    tree'.record? ConstantOutline.keys = values' at alike ⊢
  cases alike with
  | none => rfl
  | some alike =>
    obtain - | ⟨name, - | ⟨code, - | ⟨tag, ⟨⟩⟩⟩⟩ := alike
    simp only [Option.bind_eq_bind, Option.bind_some, name.required_eq, code.required_eq,
      tag.defaulted_eq Tree.text? rfl]

theorem same_description (alike : Option.Rel (Alike RecordEntry.MayStand description.entries)
    (tree.record? Outline.keys) (tree'.record? Outline.keys)) : description.Same tree tree' := by
  rw [Same, Outline.ofTree?, Outline.ofTree?]
  generalize tree.record? Outline.keys = values, tree'.record? Outline.keys = values' at alike ⊢
  cases alike with
  | none => rfl
  | some alike =>
    obtain - | ⟨major, - | ⟨minor, - | ⟨revision, - | ⟨port, - | ⟨domains, - | ⟨constants, - |
      ⟨classes, ⟨⟩⟩⟩⟩⟩⟩⟩⟩ := alike
    have noRevision : octetOf? zero = some 0 := rfl
    have noDomains : (Tree.array []).items? Outline.domainOf? = some [] := rfl
    simp only [Option.bind_eq_bind, Option.bind_some, major.required_eq, minor.required_eq,
      revision.defaulted_eq octetOf? noRevision, port.required_eq, domains.defaulted_eq _ noDomains,
      constants.items_eq ConstantOutline.ofTree? fun _ _ same => same,
      classes.requiredItems_eq (ClassOutline.ofTree? 2) fun _ _ same => same 2]

/-- Records whose values may stand for each other are read alike. -/
theorem same_of_alike (kind : RecordKind) (alike : Option.Rel (Alike RecordEntry.MayStand kind.entries)
    (tree.record? (kind.entries.map (·.key))) (tree'.record? (kind.entries.map (·.key)))) :
    kind.Same tree tree' := by
  cases kind with
  | description => exact same_description alike
  | constant => exact same_constant alike
  | methodClass => exact same_methodClass alike
  | method => exact same_method alike
  | field => exact same_field alike

end RecordKind

/-- A record in other words is read alike. -/
theorem Respells.same {kind : RecordKind} {tree tree' : Tree} (h : Respells kind tree tree') :
    kind.Same tree tree' := by
  induction h with
  | reordered same =>
    refine RecordKind.same_of_alike _ (Alike.of_objects fun entry _ => ?_)
    rw [Key.inObject?_perm same]
    exact Json.rel_self .same _
  | ignored unknown =>
    refine RecordKind.same_of_alike _ (Alike.of_objects fun entry listed => ?_)
    exact Key.inObject?_cons .same fun here => (unknown entry listed here).elim
  | written known missing fallback =>
    refine RecordKind.same_of_alike _ (Alike.of_objects fun other listed => ?_)
    refine Key.inObject?_cons .same fun here => ?_
    cases RecordKind.entry_eq_of_name listed known here
    exact ⟨missing, RecordKind.optional_of_fallback known fallback, .written fallback⟩
  | positional each =>
    refine RecordKind.same_of_alike _ (Alike.of_array ?_)
    refine ((List.forall₂_and_left _ _).mpr ⟨fun _ listed => listed, each⟩).imp fun entry item h => ?_
    obtain ⟨listed, single | ⟨missing, fallback⟩⟩ := h
    · rw [Key.inObject?_of_singleton single]
      exact .some (.same _)
    · rw [Key.inObject?_of_nil missing, if_neg (RecordKind.optional_of_fallback listed fallback)]
      exact .some (.written fallback)
  | member known records _ ih =>
    refine RecordKind.same_of_alike _ (Alike.of_objects fun other listed => ?_)
    refine Key.inObject?_replace .same fun here => ?_
    cases RecordKind.entry_eq_of_name listed known here
    exact .inside records ih
  | place known records _ ih =>
    refine RecordKind.same_of_alike _ (Alike.of_arrays (fun _ => .same) fun other listed => ?_)
    cases known.symm.trans listed
    exact .inside records ih

/-- Descriptions in texts that say the same are loaded alike, and so is every flaw of them: it does not
matter in which order members stand, which others stand among them, whether a default is written, and
whether a record is an object or an array. -/
theorem respelled_descriptions_load_alike {text text' : String} {tree tree' : Tree}
    (parsed : Json.parse? text = some tree) (parsed' : Json.parse? text' = some tree')
    (respelled : Relation.EqvGen (Respells .description) tree tree') :
    Description.outlineOfJson? text' = Description.outlineOfJson? text ∧
      Description.ofJson text' = Description.ofJson text := by
  have same : Outline.ofTree? tree = Outline.ofTree? tree' :=
    (eq_equivalence.comap Outline.ofTree?).eqvGen_iff.mp (respelled.mono fun _ _ step => step.same)
  have outline : Description.outlineOfJson? text' = Description.outlineOfJson? text := by
    rw [Description.outlineOfJson?, Description.outlineOfJson?, parsed, parsed']
    exact same.symm
  refine ⟨outline, ?_⟩
  rw [Description.ofJson, Description.ofJson, outline]

namespace OneClass

/-- A description of objects, with a member that is no key. -/
def objects : String :=
  "\x7b\"port\":5672,\"minor-version\":9,\"major-version\":0,\"comment\":null,\"classes\":[" ++
    "\x7b\"properties\":[\x7b\"domain\":\"bit\",\"name\":\"mandatory\"\x7d]," ++
    "\"name\":\"basic\",\"id\":60\x7d]\x7d"

/-- The same description, of arrays. -/
def arrays : String :=
  "[0,9,0,5672,[],[],[[60,\"basic\",[],[[\"mandatory\",null,\"bit\",null]]]]]"

def number (digits : List Nat) : Tree :=
  .number ⟨false, digits, [], none⟩

/-- The document of the property, as an object. -/
def property : Tree :=
  .ofMembers [("domain", .text (some "bit")), ("name", .text (some "mandatory"))]

/-- The document of the class, with a document of its property. -/
def basic (property : Tree) : Tree :=
  .ofMembers [("properties", .array [property]), ("name", .text (some "basic")), ("id", number [6, 0])]

/-- The document of the description, with a document of its class. -/
def description (basic : Tree) : Tree :=
  .ofMembers [("port", number [5, 6, 7, 2]), ("minor-version", number [9]), ("major-version", number [0]),
    ("comment", .null), ("classes", .array [basic])]

def propertyItems : List Tree :=
  [.text (some "mandatory"), .null, .text (some "bit"), .null]

def basicItems : List Tree :=
  [number [6, 0], .text (some "basic"), .array [], .array [.array propertyItems]]

def descriptionItems : List Tree :=
  [number [0], number [9], number [0], number [5, 6, 7, 2], .array [], .array [],
    .array [.array basicItems]]

set_option maxRecDepth 4000 in
theorem parse?_objects : Json.parse? objects = some (description (basic property)) := by
  with_unfolding_all rfl

theorem parse?_arrays : Json.parse? arrays = some (.array descriptionItems) := by
  with_unfolding_all rfl

theorem property_positional : Respells .field property (.array propertyItems) :=
  .positional (.cons (.inl rfl) (.cons (.inr ⟨rfl, rfl⟩) (.cons (.inl rfl) (.cons (.inr ⟨rfl, rfl⟩) .nil))))

theorem basic_positional : Respells .methodClass (basic (.array propertyItems)) (.array basicItems) :=
  .positional (.cons (.inl rfl) (.cons (.inl rfl) (.cons (.inr ⟨rfl, rfl⟩) (.cons (.inl rfl) .nil))))

theorem description_positional :
    Respells .description (description (.array basicItems)) (.array descriptionItems) :=
  .positional (.cons (.inl rfl) (.cons (.inl rfl) (.cons (.inr ⟨rfl, rfl⟩) (.cons (.inl rfl)
    (.cons (.inr ⟨rfl, rfl⟩) (.cons (.inr ⟨rfl, rfl⟩) (.cons (.inl rfl) .nil)))))))

/-- The property, the class and the description become arrays, from the inside out. -/
theorem respelled :
    Relation.EqvGen (Respells .description) (description (basic property)) (.array descriptionItems) := by
  have inClass : Respells .methodClass (basic property) (basic (.array propertyItems)) :=
    @Respells.member _ _ [] _ ⟨⟨"properties", .defaulted⟩, some (.array []), some .field⟩ [] [] _ _
      (by simp [RecordKind.entries]) rfl property_positional
  have inClasses {record record' : Tree} (inner : Respells .methodClass record record') :
      Respells .description (description record) (description record') :=
    @Respells.member _ _ [_, _, _, _] [] ⟨⟨"classes", .required⟩, none, some .methodClass⟩ [] [] _ _
      (by simp [RecordKind.entries]) rfl inner
  exact .trans _ _ _ (.rel _ _ (inClasses inClass))
    (.trans _ _ _ (.rel _ _ (inClasses basic_positional)) (.rel _ _ description_positional))

/-- The arrays are loaded like the objects, as a description. -/
theorem arrays_load_like_objects : Description.ofJson arrays = Description.ofJson objects ∧
    (Description.ofJson objects).map (fun d => d.classes.map (·.name)) = .ok ["basic"] := by
  obtain ⟨-, same⟩ := respelled_descriptions_load_alike parse?_objects parse?_arrays respelled
  rw [same, eq_self, true_and, ← same]
  with_unfolding_all rfl

end OneClass

end WireProtocol
