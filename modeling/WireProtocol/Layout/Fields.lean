import WireProtocol.Description.Basic
import WireProtocol.Layout.Chunk

/-!
# Layouts of field lists

* `Description.classify`: the fields of a list with their wire types.
* `Description.packFields`: the chunks of a list.
-/

namespace WireProtocol

namespace Description

/-- The fields of a list with their wire types, or the first domain that has none. -/
def classify (d : Description) (fields : FieldList) :
    Except DescriptionError (List (Field × WireType)) :=
  fields.toList.mapM fun field => return (field, ← d.fieldType field)

/-- The chunks of a list of fields. -/
def packFields (d : Description) (fields : FieldList) :
    Except DescriptionError (List (Chunk Field)) := do
  return coalesce (← d.classify fields)

end Description

end WireProtocol
