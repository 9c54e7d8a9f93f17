import WireProtocol.Description.Basic
import WireProtocol.Payload.Error

/-!
# Looking up methods and classes

What peers say by number or by name is looked up in declaration order; the first match counts.

* `Description.methodOfIds`: the method of a class id and a method id.
* `Description.classOfId`, `Description.classOfName`: the class of an id, or of a name.
-/

namespace WireProtocol

namespace Description

/-- The method with that class id and method id. -/
def methodOfIds (d : Description) (classId methodId : UInt16) : Except FrameError Method :=
  match d.methods.find? fun m => m.classId == classId && m.id == methodId with
  | some method => .ok method
  | none => .error (.unknownMethodId classId methodId)

/-- The class with that id. -/
def classOfId (d : Description) (id : UInt16) : Except FrameError Class :=
  match d.classes.find? (·.id == id) with
  | some c => .ok c
  | none => .error (.unknownClassId id)

/-- The class of that name. -/
def classOfName (d : Description) (name : String) : Except FrameError Class :=
  match d.classes.find? (·.name == name) with
  | some c => .ok c
  | none => .error (.unknownClassName name)

end Description

end WireProtocol
