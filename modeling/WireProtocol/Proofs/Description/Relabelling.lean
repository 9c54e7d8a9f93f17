import WireProtocol.Layout.Fields
import WireProtocol.Proofs.Correspondence

/-!
# Other domains for the same fields

* `Field.relabel`, `Method.relabel`, `Class.relabel`: fields, and what has fields, with other domains.
* `SameTypes`: fields have the same types before and after.
* `Relabels`: a description is another one with other domains, but with the same types of all fields.
* `packFields_relabel`: fields with other domains are grouped in the same way.
-/

namespace WireProtocol

/-- The field in the domain that it is to have. -/
def Field.relabel (domain : Field → String) (field : Field) : Field :=
  { field with domain := domain field }

@[simp] theorem Field.name_relabel (domain : Field → String) (field : Field) :
    (field.relabel domain).name = field.name := rfl

/-- The fields in the domains that they are to have. -/
def FieldList.relabel (domain : Field → String) (fields : FieldList) : FieldList where
  toList := fields.toList.map (Field.relabel domain)
  indexed := by
    rw [List.map_map, List.length_map, ← fields.indexed]
    rfl

/-- The method with its arguments in other domains. -/
def Method.relabel (domain : Field → String) (method : Method) : Method :=
  { method with arguments := method.arguments.relabel domain }

/-- The class with its properties and the arguments of its methods in other domains. -/
def Class.relabel (domain : Field → String) (c : Class) : Class :=
  { c with
    properties := c.properties.relabel domain
    methods := c.methods.map (Method.relabel domain)
    attached := by
      intro method member
      obtain ⟨own, inside, rfl⟩ := List.mem_map.mp member
      exact c.attached own inside }

/-! ## Fields that keep their domains -/

theorem FieldList.relabel_domain (fields : FieldList) : fields.relabel Field.domain = fields := by
  cases fields
  simp only [relabel, FieldList.mk.injEq]
  exact List.map_id'' (fun _ => rfl) _

theorem Method.relabel_domain (method : Method) : method.relabel Field.domain = method := by
  rw [relabel, FieldList.relabel_domain]

theorem Class.relabel_domain (c : Class) : c.relabel Field.domain = c := by
  cases c
  simp only [relabel, FieldList.relabel_domain, Class.mk.injEq, true_and]
  exact List.map_id'' Method.relabel_domain _

/-! ## Descriptions with other domains -/

variable {domain : Field → String} {d d' : Description}

/-- The fields have the same types in the other description as they have in this one. -/
def SameTypes (domain : Field → String) (d d' : Description) (fields : FieldList) : Prop :=
  ∀ field ∈ fields.toList, d'.fieldType (field.relabel domain) = d.fieldType field

/-- The other description has the same parts as this one, with other domains that have the same types. -/
structure Relabels (domain : Field → String) (d d' : Description) : Prop where
  version : d'.version = d.version
  port : d'.port = d.port
  constants : d'.constants = d.constants
  classes : d'.classes = d.classes.map (Class.relabel domain)
  arguments : ∀ method ∈ d.methods, SameTypes domain d d' method.arguments
  properties : ∀ c ∈ d.classes, SameTypes domain d d' c.properties

/-- The methods are relabelled when the classes are. -/
theorem Relabels.methods (h : Relabels domain d d') :
    d'.methods = d.methods.map (Method.relabel domain) := by
  rw [Description.methods, Description.methods, h.classes, List.flatMap_map, List.map_flatMap]
  rfl

/-- Fields with other domains are grouped in the same way. -/
theorem packFields_relabel {fields : FieldList} (same : SameTypes domain d d' fields) :
    d'.packFields (fields.relabel domain) =
      List.map (Chunk.map (Field.relabel domain)) <$> d.packFields fields := by
  have classified : d'.classify (fields.relabel domain) =
      List.map (Prod.map (Field.relabel domain) id) <$> d.classify fields := by
    refine List.mapM_map_of_map fun field inside => ?_
    rw [same field inside]
    simp
  rw [Description.packFields, Description.packFields, classified]
  cases d.classify fields with
  | error => rfl
  | ok arguments => exact congrArg Except.ok (coalesce_map (Field.relabel domain) arguments)

end WireProtocol
