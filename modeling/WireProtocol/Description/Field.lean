import WireProtocol.Text.Quoted

/-!
# Fields

* `DefaultValue`: the value that an argument starts out with.
* `Field`: an argument or a property.
* `FieldList`: fields in order, each under the index of its place. Pushing a field gives it its
  index.
-/

namespace WireProtocol

/-- The value that an argument starts out with. Of the tables only the empty one can be declared. -/
inductive DefaultValue where
  | bool (value : Bool)
  | int (value : UInt64)
  | text (value : String)
  | emptyTable
deriving DecidableEq, Repr

/-- The text by which messages show a default. -/
def DefaultValue.display : DefaultValue → String
  | bool true => "true"
  | bool false => "false"
  | int value => toString value.toNat
  | text value => Quoted.quote value
  | emptyTable => "\x7b\x7d"

/-- An argument of a method or a property of a class. -/
structure Field where
  name : String
  domain : String
  default : Option DefaultValue
  index : Nat
deriving DecidableEq, Repr

/-- A field that belongs to no list yet. -/
def Field.new (name domain : String) (default : Option DefaultValue) : Field :=
  ⟨name, domain, default, 0⟩

/-- The fields of a method or a class, in declaration order and numbered from zero. -/
structure FieldList where
  toList : List Field
  indexed : toList.map Field.index = List.range toList.length
deriving DecidableEq

namespace FieldList

/-- No fields. -/
def empty : FieldList :=
  ⟨[], rfl⟩

/-- The number of fields. -/
def length (fields : FieldList) : Nat :=
  fields.toList.length

/-- Whether there are no fields. -/
def isEmpty (fields : FieldList) : Bool :=
  fields.toList.isEmpty

/-- A field at the end. It takes its index from there, whatever index it had before. -/
def push (fields : FieldList) (field : Field) : FieldList where
  toList := fields.toList ++ [{ field with index := fields.length }]
  indexed := by simp [fields.indexed, List.range_succ, length]

/-- The list that arises by pushing fields one after the other. -/
def ofList (fields : List Field) : FieldList :=
  fields.foldl push empty

/-- The first field of that name. -/
def find? (fields : FieldList) (name : String) : Option Field :=
  fields.toList.find? (·.name == name)

@[simp] theorem length_push (fields : FieldList) (field : Field) :
    (fields.push field).length = fields.length + 1 := by
  simp [push, length]

/-- The pushed field stands at the end, under the index of that place. -/
theorem toList_push (fields : FieldList) (field : Field) :
    (fields.push field).toList = fields.toList ++ [{ field with index := fields.length }] := rfl

/-- The field at a place has the index of the place. -/
theorem index_getElem (fields : FieldList) (i : Nat) (h : i < fields.toList.length) :
    fields.toList[i].index = i := by
  have same := congrArg (·[i]?) fields.indexed
  simpa [h] using same

theorem index_of_getElem? {fields : FieldList} {i : Nat} {field : Field}
    (h : fields.toList[i]? = some field) : field.index = i := by
  obtain ⟨inside, rfl⟩ := List.getElem?_eq_some_iff.mp h
  exact fields.index_getElem i inside

end FieldList

end WireProtocol
