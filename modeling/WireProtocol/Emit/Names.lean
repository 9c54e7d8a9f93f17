import WireProtocol.Description.Basic
import WireProtocol.Emit.Ident

/-!
# Names of generated types

* `Method.typeIdent`: the record of a method, and its place among all methods.
* `Class.typeIdent`, `Class.propertiesIdent`: a class among all classes, and the record of its
  properties.
-/

namespace WireProtocol

/-- The name of the record of a method. -/
def Method.typeIdent (m : Method) : Except GenerateError Ident :=
  Ident.ofType [m.className, m.name]

/-- The name of a class among all classes. -/
def Class.typeIdent (c : Class) : Except GenerateError Ident :=
  Ident.ofType [c.name]

/-- The name of the record of the properties of a class. -/
def Class.propertiesIdent (c : Class) : Except GenerateError Ident :=
  Ident.ofType [c.name, "properties"]

end WireProtocol
