import WireProtocol.Description.Error
import WireProtocol.Description.Field
import WireProtocol.ErrorClass
import WireProtocol.Version
import WireProtocol.WireType

/-!
# Protocol descriptions

* `Constant`, `Method`, `Class`: the parts of a description.
* `Description`: a protocol, built part by part from `Description.new`.
* `Description.resolve`: the wire type behind a domain.

A method belongs to one class and knows it; a class of a description has at most fifteen
properties. Both hold by construction.
-/

namespace WireProtocol

/-- A named number, classified by what it means as a reply code. -/
structure Constant where
  name : String
  code : UInt32
  errorClass : ErrorClass
deriving DecidableEq, Repr

/-- A method. It carries the id and the name of the class that it has been attached to. -/
structure Method where
  name : String
  id : UInt16
  arguments : FieldList
  hasContent : Bool
  synchronous : Bool
  classId : UInt16
  className : String
deriving DecidableEq

namespace Method

/-- A method without arguments that belongs to no class yet. -/
def new (id : UInt16) (name : String) : Method :=
  ⟨name, id, .empty, false, false, 0, ""⟩

/-- The method with another argument behind the others. -/
def withArgument (method : Method) (field : Field) : Method :=
  { method with arguments := method.arguments.push field }

/-- The method with that content flag. -/
def withContent (method : Method) (hasContent : Bool) : Method :=
  { method with hasContent }

/-- The method with that synchronous flag. -/
def withSynchronous (method : Method) (synchronous : Bool) : Method :=
  { method with synchronous }

/-- The method as a member of the class of that identity. -/
def attach (method : Method) (classId : UInt16) (className : String) : Method :=
  { method with classId, className }

/-- `class.method`, the name that peers and diagnostics use. -/
def qualifiedName (method : Method) : String :=
  s!"{method.className}.{method.name}"

end Method

/-- A class: its content properties and its methods, each of which carries its identity. -/
structure Class where
  name : String
  id : UInt16
  properties : FieldList
  methods : List Method
  attached : ∀ method ∈ methods, method.classId = id ∧ method.className = name

namespace Class

/-- A class without properties and methods. -/
def new (id : UInt16) (name : String) : Class where
  name := name
  id := id
  properties := .empty
  methods := []
  attached := by simp

/-- The class with another property behind the others. -/
def withProperty (c : Class) (field : Field) : Class :=
  { c with properties := c.properties.push field }

/-- The class with another method behind the others. The method takes over the identity of the
class. -/
def withMethod (c : Class) (method : Method) : Class :=
  { c with
    methods := c.methods ++ [method.attach c.id c.name]
    attached := by
      intro m member
      rcases List.mem_append.mp member with old | new
      · exact c.attached m old
      · rw [List.mem_singleton.mp new]
        exact ⟨rfl, rfl⟩ }

end Class

/-- The most properties that a presence bitmap of sixteen bits, the last of which is reserved, has
room for. -/
def maxProperties : Nat := 15

/-- A protocol. The domains are kept with the last declared first. -/
structure Description where
  version : Version
  port : UInt16
  domains : List (String × String)
  classes : List Class
  constants : List Constant
  bounded : ∀ c ∈ classes, c.properties.length ≤ maxProperties

namespace Description

/-- A protocol without domains, classes and constants. -/
def new (version : Version) (port : UInt16) : Description where
  version := version
  port := port
  domains := []
  classes := []
  constants := []
  bounded := by simp

/-- The description with an alias for a type. It hides an earlier one of the same name. -/
def withDomain (d : Description) (name target : String) : Description :=
  { d with domains := (name, target) :: d.domains }

/-- The description with another constant behind the others. -/
def withConstant (d : Description) (constant : Constant) : Description :=
  { d with constants := d.constants ++ [constant] }

/-- The description with another class behind the others, unless the class has more properties than
the presence bitmap has room for. -/
def withClass (d : Description) (c : Class) : Except DescriptionError Description :=
  if h : c.properties.length ≤ maxProperties then
    .ok { d with
      classes := d.classes ++ [c]
      bounded := by
        intro c' member
        rcases List.mem_append.mp member with old | new
        · exact d.bounded c' old
        · rw [List.mem_singleton.mp new]
          exact h }
  else
    .error (.tooManyProperties c.name c.properties.length)

/-- The first constant of that name. -/
def constant? (d : Description) (name : String) : Option Constant :=
  d.constants.find? (·.name == name)

/-- Every method, in the order of the classes and then of the methods. -/
def methods (d : Description) : List Method :=
  d.classes.flatMap (·.methods)

/-- The name that a domain stands for: the target of its last alias, or else itself. -/
def target (d : Description) (domain : String) : String :=
  (d.domains.lookup domain).getD domain

/-- The wire type behind a domain. An alias is followed once; the error names the domain as it was
asked for. -/
def resolve (d : Description) (domain : String) : Except DescriptionError WireType :=
  match WireType.ofName? (d.target domain) with
  | some ty => .ok ty
  | none => .error (.unknownDomain domain)

/-- The wire type of a field. -/
def fieldType (d : Description) (field : Field) : Except DescriptionError WireType :=
  d.resolve field.domain

end Description

end WireProtocol
