import WireProtocol.Codec.Value
import WireProtocol.Emit.Item
import WireProtocol.Emit.Names
import WireProtocol.Emit.Trace

/-!
# Declarations

The types of generated code: constants, the records of methods and properties, and the choices
between them.

* `Declarations.items`: all declarations of a description.
* `Declarations.defaultTokens`: a default as code.
-/

namespace WireProtocol

namespace Declarations

open Tokens

/-! ## Constants -/

/-- The version, the port and the constants. -/
def constants (d : Description) : Except GenerateError (List Item) := do
  let v := d.version.reported
  let declared ← d.constants.mapM fun c => do
    let id ← Ident.ofConstant c.name
    return Item.constant [] id (words "u32") (Literal.number c.code.toNat "u32")
  let versionType := parens (words "u8 , u8 , u8")
  let version := parens (commaSeparated
    ([v.major, v.minor, v.revision].map fun n => Literal.number n.toNat "u8"))
  return [
    .constant (Item.rawDoc " Protocol version as peers expect to see it.") (.plain "VERSION")
      versionType version,
    .constant [] (.plain "PROTOCOL_PORT") (words "u16") (Literal.number d.port.toNat "u16")] ++
    declared

/-! ## Records -/

/-- A value as code. -/
def valueTokens : WireValue → Tokens
  | .bit value => Literal.bool value
  | .octet value => Literal.number value.toNat "u8"
  | .short value => Literal.number value.toNat "u16"
  | .long value => Literal.number value.toNat "u32"
  | .longlong value => Literal.number value.toNat "u64"
  | .timestamp value => Literal.number value.toNat "u64"
  | .shortstr bytes => Literal.octets bytes ++ words ". to_vec" ++ parens []
  | .longstr bytes => Literal.octets bytes ++ words ". to_vec" ++ parens []
  | .table _ => runtime "FieldTable :: new" ++ parens []

/-- The default of an argument as code, if it fits the type. -/
def defaultTokens (owner : String) (field : Field) (ty : WireType) :
    Except GenerateError Tokens :=
  match field.default with
  | none => .ok (words ":: core :: default :: Default :: default" ++ parens [])
  | some default =>
    match WireValue.ofDefault? ty default with
    | some value => .ok (valueTokens value)
    | none => .error (.defaultMismatch owner field.name default ty)

/-- An argument in the record of its method: its name, its type and its default. -/
def argument (d : Description) (owner : String) (field : Field) :
    Gen (Ident × Tokens × Tokens) := do
  let id ← Gen.ofExcept (Ident.ofField field.name)
  let ty ← Gen.ask (d.fieldType field)
  let init ← Gen.ofExcept (defaultTokens owner field ty)
  return (id, typeOf ty, init)

/-- The defaults of a record that declares some. -/
def defaultImplementation (record : Ident) (inits : List (Ident × Tokens)) : Item :=
  let fields := inits.flatMap fun (id, init) => name id ++ words ":" ++ init ++ words ","
  .implementation (words "Default for" ++ name record)
    (words "fn default" ++ parens [] ++ words "-> Self" ++
      braces (words "Self" ++ braces fields))

/-- The record of a method. Its defaults are derived unless an argument declares one. -/
def methodRecord (d : Description) (m : Method) : Gen (List Item) := do
  let record ← Gen.ofExcept m.typeIdent
  let arguments ← m.arguments.toList.mapM (argument d m.qualifiedName)
  let fields := arguments.map fun (id, type, _) => (id, type)
  let doc := Item.doc s!" `{m.qualifiedName}` arguments."
  if m.arguments.toList.any (·.default.isSome) then
    return [
      .record (doc ++ Item.derive ["Clone", "Debug", "PartialEq"]) record fields,
      defaultImplementation record (arguments.map fun (id, _, init) => (id, init))]
  else
    return [.record (doc ++ Item.derive ["Clone", "Debug", "Default", "PartialEq"]) record fields]

/-- A property in the record of its class. Every property may be absent. -/
def property (d : Description) (field : Field) : Gen (Ident × Tokens) := do
  let id ← Gen.ofExcept (Ident.ofField field.name)
  let ty ← Gen.ask (d.fieldType field)
  return (id, words "Option <" ++ typeOf ty ++ words ">")

/-- The record of the properties of a class. -/
def propertiesRecord (d : Description) (c : Class) : Gen Item := do
  let record ← Gen.ofExcept c.propertiesIdent
  let fields ← c.properties.toList.mapM (property d)
  return .record
    (Item.doc s!" `{c.name}` content properties." ++
      Item.derive ["Clone", "Debug", "Default", "PartialEq"])
    record fields

/-- The records of a class: those of its methods, and that of its properties. -/
def classRecords (d : Description) (c : Class) : Gen (List Item) := do
  Gen.report (.declaringClass c.name c.methods.length)
  let methods ← c.methods.mapM (methodRecord d)
  let properties ← propertiesRecord d c
  return methods.flatten ++ [properties]

/-! ## Choices -/

/-- The names of all methods. -/
def methodNames (d : Description) : Except GenerateError (List Item) := do
  let variants ← d.methods.mapM fun m => return (← m.typeIdent, m.qualifiedName)
  let all := commaTerminated (variants.map fun (id, _) => member "Self" id)
  let arms := variants.map fun (id, text) => (member "Self" id, Literal.text text)
  let allConstant :=
    words "pub const ALL :" ++
      brackets (words "Self ;" ++ Literal.number variants.length "usize") ++ words "=" ++
      brackets all ++ words ";"
  let asText := Item.function
    (Item.rawDoc " `class.method` as peers and diagnostics spell it." ++ Item.mustUse)
    "pub const fn" (.plain "as_str") (words "self") (words "& 'static str")
    (cases (words "self") arms)
  let display := Item.function [] "fn" (.plain "fmt")
    (words "& self , f : & mut :: core :: fmt :: Formatter < '_ >")
    (words ":: core :: fmt :: Result")
    (words "f . write_str" ++ parens (words "self . as_str" ++ parens []))
  return [
    .choice
      (Item.rawDoc " Every method of the protocol, in declaration order." ++
        Item.derive
          ["Clone", "Copy", "Debug", "Eq", "Hash", "Ord", "PartialEq", "PartialOrd"])
      (.plain "MethodName") (variants.map fun (id, _) => (id, none)),
    .implementation (words "MethodName") (allConstant ++ asText.tokens),
    .implementation (words ":: core :: fmt :: Display for MethodName") display.tokens]

/-- A record as a value of the choice that it belongs to. -/
def conversion (choice : String) (variant record : Ident) : Item :=
  let convert := Item.function [] "fn" (.plain "from") (words "record :" ++ name record)
    (words "Self") (member "Self" variant ++ parens (words "record"))
  .implementation (words "From <" ++ name record ++ words ("> for " ++ choice)) convert.tokens

/-- A choice between records, with a question that the variant alone answers. -/
def recordChoice (line choice question : String) (answer : Tokens)
    (variants : List (Ident × Ident × Tokens)) : List Item :=
  let arms := variants.map fun (id, _, result) =>
    (member "Self" id ++ parens (words "_"), result)
  let function := Item.function Item.mustUse "pub const fn" (.plain question) (words "& self")
    answer (cases (words "* self") arms)
  [ .choice (Item.rawDoc line ++ Item.derive ["Clone", "Debug", "PartialEq"]) (.plain choice)
      (variants.map fun (id, record, _) => (id, some record)),
    .implementation (words choice) function.tokens ] ++
    variants.map fun (id, record, _) => conversion choice id record

/-- A method with its arguments. -/
def methodChoice (d : Description) : Except GenerateError (List Item) := do
  let variants ← d.methods.mapM fun m => do
    let id ← m.typeIdent
    return (id, id, member "MethodName" id)
  return recordChoice " A decoded method with its arguments." "Method" "name"
    (words "MethodName") variants

/-- The properties of a class. -/
def propertiesChoice (d : Description) : Except GenerateError (List Item) := do
  let variants ← d.classes.mapM fun c => do
    let id ← c.typeIdent
    let record ← c.propertiesIdent
    return (id, record, Literal.number c.id.toNat "u16")
  return recordChoice " Content properties of any class." "Properties" "class_id" (words "u16")
    variants

/-! ## All of them -/

/-- The declarations of a description, in order. -/
def items (d : Description) : Gen (List Item) := do
  let constants ← Gen.ofExcept (constants d)
  let records ← d.classes.mapM (classRecords d)
  let methodNames ← Gen.ofExcept (methodNames d)
  let methodChoice ← Gen.ofExcept (methodChoice d)
  let propertiesChoice ← Gen.ofExcept (propertiesChoice d)
  return constants ++ records.flatten ++ methodNames ++ methodChoice ++ propertiesChoice

end Declarations

end WireProtocol
