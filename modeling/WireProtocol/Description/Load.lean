import WireProtocol.Description.Basic
import WireProtocol.Description.Outline
import WireProtocol.Json.Parse

/-!
# Loading descriptions

* `Description.ofOutline`: the description that an outline means, or the first thing wrong with it:
  constants in order, then class by class its properties, its methods and the number of its
  properties.
* `Description.ofJson`: the description in a JSON text.
-/

namespace WireProtocol

/-- The default that a JSON value stands for. -/
def DefaultValue.ofJson? : Json.Value → Option DefaultValue
  | .bool b => some (bool b)
  | .number (.natural n) => some (int n)
  | .text t => some (text t)
  | .object [] => some emptyTable
  | _ => none

/-- The default of a field, if one is written. -/
def FieldOutline.checkDefault (f : FieldOutline) :
    Except DescriptionError (Option DefaultValue) :=
  match f.default with
  | none => .ok none
  | some value =>
    match DefaultValue.ofJson? value with
    | some default => .ok (some default)
    | none => .error (.unsupportedDefault f.name value)

/-- The field that an outline means. The domain counts before the type. -/
def FieldOutline.toField (f : FieldOutline) : Except DescriptionError Field :=
  match f.domainName.or f.typeName with
  | none => .error (.missingDomain f.name)
  | some domain => do
    let default ← f.checkDefault
    return Field.new f.name domain default

/-- The constant that an outline means. -/
def ConstantOutline.toConstant (c : ConstantOutline) : Except DescriptionError Constant :=
  match ErrorClass.ofTag? c.tag with
  | some errorClass => .ok ⟨c.name, c.code, errorClass⟩
  | none => .error (.unknownErrorClass c.name c.tag)

/-- The method that an outline means. -/
def MethodOutline.toMethod (m : MethodOutline) : Except DescriptionError Method := do
  let method := ((Method.new m.id m.name).withSynchronous m.synchronous).withContent m.hasContent
  m.arguments.foldlM (fun method f => return method.withArgument (← f.toField)) method

/-- The class that an outline means. -/
def ClassOutline.toClass (c : ClassOutline) : Except DescriptionError Class := do
  let withProperties ←
    c.properties.foldlM (fun result f => return Class.withProperty result (← f.toField))
      (Class.new c.id c.name)
  c.methods.foldlM (fun result m => return Class.withMethod result (← m.toMethod)) withProperties

namespace Description

/-- The description that an outline means. -/
def ofOutline (o : Outline) : Except DescriptionError Description := do
  let empty := new ⟨o.major, o.minor, o.revision⟩ o.port
  let withDomains := o.domains.foldl (fun d (name, target) => d.withDomain name target) empty
  let withConstants ←
    o.constants.foldlM (fun d c => return withConstant d (← c.toConstant)) withDomains
  o.classes.foldlM (fun d c => do withClass d (← c.toClass)) withConstants

/-- The outline in a JSON text, if the text has the shape of a description. -/
def outlineOfJson? (text : String) : Option Outline := do
  Outline.ofTree? (← Json.parse? text)

/-- The description in a JSON text. A text without the required shape is malformed whatever else is
wrong with it. -/
def ofJson (text : String) : Except DescriptionError Description :=
  match outlineOfJson? text with
  | none => .error .malformed
  | some outline => ofOutline outline

end Description

end WireProtocol
