import WireProtocol.Codec.Lookup
import WireProtocol.Codec.Properties
import WireProtocol.Emit.Names

/-!
# Dispatch

Generated code speaks of methods by names, and of properties as those of one of the classes.

* `Method.ids`: what stands for a method on the wire.
* `Description.methodOfName?`: the method of a name.
* `Description.propertyLayouts`: the property payloads of all classes.
* `Properties`: the properties of some class.
* `Properties.decode`, `Properties.encode`: they travel as the payload of their class, next to its id.
-/

namespace WireProtocol

/-- The id of the class of the method, and its own. -/
def Method.ids (m : Method) : UInt16 × UInt16 :=
  (m.classId, m.id)

namespace Description

/-- The method of that name in code. -/
def methodOfName? (d : Description) (name : Ident) : Option Method :=
  d.methods.find? fun m => m.typeIdent.toOption == some name

/-- The layouts of the properties of all classes, or the first domain that does not resolve. -/
def propertyLayouts (d : Description) : Except DescriptionError (List PropertyLayout) :=
  d.classes.mapM d.propertyLayout

end Description

/-- Properties of some class: a record, with the layout of its class. -/
structure Properties where
  layout : PropertyLayout
  record : List (Option WireValue)

namespace Properties

/-- The id of the class that the properties belong to. -/
def classId (p : Properties) : UInt16 :=
  p.layout.classId

/-- The payload that holds the properties. -/
def encode (p : Properties) : Except FrameError Bytes :=
  p.layout.encode p.record

/-- The properties in a payload that came with the id of a class. The first class of the id counts. -/
def decode (layouts : List PropertyLayout) (classId : UInt16) (payload : Bytes) :
    Except FrameError Properties :=
  match layouts.find? (·.classId == classId) with
  | some layout => return ⟨layout, ← layout.decode payload⟩
  | none => .error (.unknownClassId classId)

end Properties

end WireProtocol
