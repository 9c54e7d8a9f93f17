import WireProtocol.Codec.Dispatch
import WireProtocol.Proofs.Codec.Properties
import WireProtocol.Proofs.FirstMatch

/-!
# Dispatch on ids and names

* `Description.methodOfIds_firstOr`, `Description.classOfId_firstOr`, `Description.classOfName_firstOr`:
  every search answers with the first method or class that is looked for.
* `Properties.decode_of_first`, `Properties.decode_of_unknown`: properties come out of a payload as those
  of the first class of the id, or not at all.
* `Description.Dispatches`: ids and names lead to the methods, the classes and the properties of a
  description, and back.
* `Description.dispatches`: so they do in every description.
-/

namespace WireProtocol

variable {d : Description} {names : List Ident} {layouts : List PropertyLayout}

namespace Description

/-! ## Searches -/

theorem methodOfIds_firstOr (d : Description) (classId methodId : UInt16) :
    FirstOr (fun m => m.ids = (classId, methodId)) d.methods (.unknownMethodId classId methodId)
      (d.methodOfIds classId methodId) := by
  have same : ∀ m ∈ d.methods,
      (m.classId == classId && m.id == methodId) = true ↔ m.ids = (classId, methodId) := by
    simp [Method.ids]
  exact .of_find? same (fun _ hit => by rw [methodOfIds, hit]) fun miss => by rw [methodOfIds, miss]

theorem classOfId_firstOr (d : Description) (id : UInt16) :
    FirstOr (fun c => c.id = id) d.classes (.unknownClassId id) (d.classOfId id) :=
  .of_find? (fun _ _ => beq_iff_eq) (fun _ hit => by rw [classOfId, hit])
    fun miss => by rw [classOfId, miss]

theorem classOfName_firstOr (d : Description) (name : String) :
    FirstOr (fun c => c.name = name) d.classes (.unknownClassName name) (d.classOfName name) :=
  .of_find? (fun _ _ => beq_iff_eq) (fun _ hit => by rw [classOfName, hit])
    fun miss => by rw [classOfName, miss]

theorem methodOfName?_eq_some_iff {name : Ident} {m : Method} :
    d.methodOfName? name = some m ↔ FirstWith (fun m => m.typeIdent = .ok name) d.methods m := by
  rw [methodOfName?, find?_eq_some_iff_firstWith]
  exact FirstWith.congr fun m _ => by rw [beq_iff_eq, Except.toOption_eq_some]

/-! ## Layouts of all classes -/

theorem keys_of_propertyLayouts (made : d.propertyLayouts = .ok layouts) :
    layouts.map (fun p => (p.classId, p.name)) = d.classes.map fun c => (c.id, c.name) := by
  refine Except.map_eq_of_mapM made fun c p here => ?_
  obtain ⟨id, name, -⟩ := propertyLayout_eq_ok.mp here
  rw [id, name]

theorem classIds_of_propertyLayouts (made : d.propertyLayouts = .ok layouts) :
    layouts.map (·.classId) = d.classes.map (·.id) := by
  have same := congrArg (List.map Prod.fst) (keys_of_propertyLayouts made)
  rwa [List.map_map, List.map_map] at same

/-- Every layout is that of a class. -/
theorem exists_class_of_mem (made : d.propertyLayouts = .ok layouts) {p : PropertyLayout}
    (member : p ∈ layouts) : ∃ c ∈ d.classes, d.propertyLayout c = .ok p := by
  have each : layouts.map Except.ok = d.classes.map d.propertyLayout :=
    Except.map_eq_of_mapM made fun c p here => here.symm
  have inside : Except.ok p ∈ d.classes.map d.propertyLayout := each ▸ List.mem_map_of_mem member
  exact List.mem_map.mp inside

theorem exists_propertyLayouts
    (resolve : ∀ c ∈ d.classes, ∀ field ∈ c.properties.toList, d.Resolves field) :
    ∃ layouts, d.propertyLayouts = .ok layouts := by
  refine Except.exists_mapM_eq_ok.mpr fun c member => ?_
  obtain ⟨properties, classified⟩ := exists_classify_eq_ok.mpr (resolve c member)
  exact ⟨⟨c.id, c.name, properties⟩, propertyLayout_eq_ok.mpr ⟨rfl, rfl, classified⟩⟩

/-- Sixteen flags are enough for every class. -/
theorem length_of_mem_propertyLayouts (made : d.propertyLayouts = .ok layouts) {p : PropertyLayout}
    (member : p ∈ layouts) : p.properties.length ≤ 16 := by
  obtain ⟨c, inside, resolved⟩ := exists_class_of_mem made member
  rw [length_of_propertyLayout resolved]
  exact Nat.le_succ_of_le (d.bounded c inside)

end Description

namespace Properties

variable {id : UInt16} {payload : Bytes}

/-- Properties come out of a payload as those of the first class of the id. -/
theorem decode_of_first {p : PropertyLayout} (first : FirstWith (fun p => p.classId = id) layouts p) :
    decode layouts id payload = (p.decode payload).map (Properties.mk p) := by
  rw [decode, first.find?_eq fun _ _ => beq_iff_eq]
  dsimp only
  cases p.decode payload <;> rfl

theorem decode_of_unknown (none : ∀ p ∈ layouts, p.classId ≠ id) :
    decode layouts id payload = .error (.unknownClassId id) := by
  rw [decode, List.find?_eq_none.mpr fun p member => beq_iff_eq.not.mpr (none p member)]

end Properties

namespace Description

/-! ## There and back -/

/-- Ids and names lead to the methods, the classes and the properties of a description, and back. -/
structure Dispatches (d : Description) (names : List Ident) (layouts : List PropertyLayout) :
    Prop where
  methods : ∀ classId methodId, FirstOr (fun m => m.ids = (classId, methodId)) d.methods
    (.unknownMethodId classId methodId) (d.methodOfIds classId methodId)
  classIds : ∀ id, FirstOr (fun c => c.id = id) d.classes (.unknownClassId id) (d.classOfId id)
  classNames : ∀ name, FirstOr (fun c => c.name = name) d.classes (.unknownClassName name)
    (d.classOfName name)
  /-- Where methods have names of their own, the ids of each lead back to its name exactly when they
  have ids of their own as well. -/
  methodsBack : names.Nodup →
    ((∀ name ∈ names, ∃ m found, d.methodOfName? name = some m ∧
        d.methodOfIds m.classId m.id = .ok found ∧ found.typeIdent = .ok name) ↔
      (d.methods.map Method.ids).Nodup)
  /-- Where classes have ids and names of their own, these lead to one another. -/
  classesBack : (d.classes.map (·.id)).Nodup → (d.classes.map (·.name)).Nodup →
    (∀ c ∈ d.classes, d.classOfId c.id = .ok c ∧ d.classOfName c.name = .ok c) ∧
      ∀ id name, (d.classOfId id).map (·.name) = .ok name ↔ (d.classOfName name).map (·.id) = .ok id
  /-- The layouts are those of the classes, in order. -/
  ownLayouts : layouts.map (fun p => (p.classId, p.name)) = d.classes.map fun c => (c.id, c.name)
  /-- A payload holds properties of the first class of the id that it came with. -/
  payloads : ∀ id p, FirstWith (fun p => p.classId = id) layouts p → ∀ payload,
    Properties.decode layouts id payload = (p.decode payload).map (Properties.mk p)
  /-- Where classes have ids of their own, properties never come back as those of another class, and
  they do come back, without the bits that are false. -/
  propertiesBack : (d.classes.map (·.id)).Nodup → ∀ p : Properties, p.layout ∈ layouts →
    (∀ payload q, Properties.decode layouts p.classId payload = .ok q → q.layout = p.layout) ∧
      ∀ octets, TypedProperties p.layout.types p.record → p.encode = .ok octets →
        Properties.decode layouts p.classId octets = .ok ⟨p.layout, p.record.map dropFalse⟩
  /-- No payload is accepted with an id that no class has. -/
  unknown : ∀ id, (∀ c ∈ d.classes, c.id ≠ id) → ∀ payload,
    Properties.decode layouts id payload = .error (.unknownClassId id)

/-- The ids of each method lead back to its name exactly when methods share no ids. -/
theorem methodsBack_iff (named : d.methods.mapM Method.typeIdent = .ok names) (apart : names.Nodup) :
    (∀ name ∈ names, ∃ m found, d.methodOfName? name = some m ∧
        d.methodOfIds m.classId m.id = .ok found ∧ found.typeIdent = .ok name) ↔
      (d.methods.map Method.ids).Nodup := by
  have spelled : names.map Except.ok = d.methods.map Method.typeIdent :=
    Except.map_eq_of_mapM named fun m name here => here.symm
  have apart' : (d.methods.map Method.typeIdent).Nodup := by
    rw [← spelled]
    exact apart.map fun _ _ => Except.ok.inj
  have own {m : Method} (member : m ∈ d.methods) :
      ∃ name ∈ names, m.typeIdent = .ok name ∧ d.methodOfName? name = some m := by
    have inside : m.typeIdent ∈ names.map Except.ok := spelled ▸ List.mem_map_of_mem member
    obtain ⟨name, listed, same⟩ := List.mem_map.mp inside
    refine ⟨name, listed, same.symm, methodOfName?_eq_some_iff.mpr ?_⟩
    rw [same]
    exact .of_nodup apart' member
  constructor
  · intro back
    refine nodup_of_first apart' fun m member => ?_
    obtain ⟨name, listed, here, first⟩ := own member
    obtain ⟨m', found, first', answered, same⟩ := back name listed
    cases first.symm.trans first'
    exact ⟨found, (d.methodOfIds_firstOr _ _).eq_ok_iff.mp answered, same.trans here.symm⟩
  · intro nodup name listed
    have inside : Except.ok name ∈ d.methods.map Method.typeIdent :=
      spelled ▸ List.mem_map_of_mem listed
    obtain ⟨m, member, here⟩ := List.mem_map.mp inside
    obtain ⟨name', -, here', first⟩ := own member
    cases here.symm.trans here'
    exact ⟨m, m, first, (d.methodOfIds_firstOr _ _).eq_ok_iff.mpr (.of_nodup nodup member), here⟩

/-- Where classes share neither ids nor names, each is found by both of its own. -/
theorem classesBack (ids : (d.classes.map (·.id)).Nodup) (names : (d.classes.map (·.name)).Nodup) :
    (∀ c ∈ d.classes, d.classOfId c.id = .ok c ∧ d.classOfName c.name = .ok c) ∧
      ∀ id name, (d.classOfId id).map (·.name) = .ok name ↔
        (d.classOfName name).map (·.id) = .ok id := by
  have byId {c : Class} (member : c ∈ d.classes) : d.classOfId c.id = .ok c :=
    (d.classOfId_firstOr c.id).eq_ok_iff.mpr (.of_nodup ids member)
  have byName {c : Class} (member : c ∈ d.classes) : d.classOfName c.name = .ok c :=
    (d.classOfName_firstOr c.name).eq_ok_iff.mpr (.of_nodup names member)
  refine ⟨fun c member => ⟨byId member, byName member⟩, fun id name => ?_⟩
  rw [Except.map_eq_ok, Except.map_eq_ok]
  constructor
  · rintro ⟨c, found, rfl⟩
    have first := (d.classOfId_firstOr id).eq_ok_iff.mp found
    exact ⟨c, byName first.mem, first.holds⟩
  · rintro ⟨c, found, rfl⟩
    have first := (d.classOfName_firstOr name).eq_ok_iff.mp found
    exact ⟨c, byId first.mem, first.holds⟩

/-- Ids and names lead to all parts of a description whose names and domains can be used. -/
theorem dispatches (named : d.methods.mapM Method.typeIdent = .ok names)
    (made : d.propertyLayouts = .ok layouts) : d.Dispatches names layouts where
  methods := d.methodOfIds_firstOr
  classIds := d.classOfId_firstOr
  classNames := d.classOfName_firstOr
  methodsBack := methodsBack_iff named
  classesBack := classesBack
  ownLayouts := keys_of_propertyLayouts made
  payloads := fun _ _ first _ => Properties.decode_of_first first
  propertiesBack := by
    intro ids p member
    rw [← classIds_of_propertyLayouts made] at ids
    have dispatched (payload : Bytes) : Properties.decode layouts p.classId payload =
        (p.layout.decode payload).map (Properties.mk p.layout) :=
      Properties.decode_of_first (.of_nodup ids member)
    constructor
    · intro payload q decoded
      rw [dispatched] at decoded
      obtain ⟨record, -, rfl⟩ := Except.map_eq_ok.mp decoded
      rfl
    · intro octets typed encoded
      have bound := length_of_mem_propertyLayouts made member
      rw [dispatched, PropertyLayout.decode_eq_of_encode bound typed encoded]
      rfl
  unknown := by
    intro id none payload
    refine Properties.decode_of_unknown fun p member => ?_
    have inside : p.classId ∈ d.classes.map (·.id) :=
      classIds_of_propertyLayouts made ▸ List.mem_map_of_mem member
    obtain ⟨c, listed, same⟩ := List.mem_map.mp inside
    exact same ▸ none c listed

end Description

end WireProtocol
