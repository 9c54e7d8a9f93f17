import WireProtocol.Codec.Properties
import WireProtocol.Emit.MethodCode

/-!
# Code for property payloads

* `PropertyDecoderCode`, `PropertyEncoderCode`: the statements of the code for one class.
* `PropertyCode.items`: the code for all classes.
-/

namespace WireProtocol

/-- The local that holds a property. -/
def Field.propertyLocal (f : Field) : Ident :=
  .plain s!"p{f.index}"

/-! ## Decoders -/

/-- A statement that reads a property if its flag is set. A bit is not read; its flag is all there
is of it. -/
structure PropertyRead where
  target : Ident
  mask : UInt16
  call : Option Ident
deriving DecidableEq, Repr

/-- The code that decodes the properties of a class. -/
structure PropertyDecoderCode where
  function : Ident
  record : Ident
  owner : String
  classId : UInt16
  reads : List PropertyRead
  fields : List (Ident × Ident)

namespace PropertyDecoderCode

open Tokens

/-- The step that reads or writes a property, unless it is a bit. -/
def callOf (ty : WireType) : Option Ident :=
  if ty.isBit then none else some (callName ty)

/-- The statement that reads a property, and the field that it fills. -/
def readOf (d : Description) (field : Field) :
    Except GenerateError (PropertyRead × Ident × Ident) := do
  let id ← Ident.ofField field.name
  let ty ← (d.fieldType field).mapError .description
  let read : PropertyRead := ⟨field.propertyLocal, presenceBit field.index, callOf ty⟩
  return (read, id, field.propertyLocal)

/-- The code that decodes the properties of a class. -/
def ofClass (d : Description) (c : Class) (function record : Ident) :
    Except GenerateError PropertyDecoderCode := do
  let reads ← c.properties.toList.mapM (readOf d)
  return {
    function, record
    owner := c.name
    classId := c.id
    reads := reads.map (·.1)
    fields := reads.map (·.2) }

/-- The tokens of a reading statement. -/
def readTokens (statement : PropertyRead) : Tokens :=
  let value :=
    match statement.call with
    | none => words "true"
    | some call => words "r ." ++ name call ++ parens [] ++ words "?"
  words "let" ++ name statement.target ++ words "= if flags &" ++ Literal.flags statement.mask ++
    words "!= 0u16" ++ braces (words "Some" ++ parens value) ++ words "else" ++
    braces (words "None") ++ words ";"

/-- The refusal of flags that no property has. -/
def reservedTokens (classId mask : UInt16) : Tokens :=
  words "if flags &" ++ Literal.flags mask ++ words "!= 0u16" ++
    braces (words "return Err" ++ parens (runtime "FrameError :: ReservedFlags" ++
      braces (words "class_id :" ++ Literal.number classId.toNat "u16" ++ words ", flags")) ++
      words ";")

/-- The function that decodes the properties of a class. -/
def item (code : PropertyDecoderCode) : Item :=
  let reader := runtime "Reader :: new" ++ parens (Literal.text code.owner ++ words ", payload")
  let body :=
    if code.reads.isEmpty then
      reader ++ words ". finish" ++ parens [] ++ words "? ;"
    else
      words "let mut r =" ++ reader ++ words ";" ++
        words "let flags = r . short" ++ parens [] ++ words "? ;" ++
        reservedTokens code.classId (reservedMask code.reads.length) ++
        code.reads.flatMap readTokens ++
        words "r . finish" ++ parens [] ++ words "? ;"
  .function [] "fn" code.function payloadParameter (resultOf (name code.record))
    (body ++ DecoderCode.recordTokens code.record code.fields)

end PropertyDecoderCode

/-! ## Encoders -/

/-- A statement that writes a property if it is there, and sets its flag. -/
inductive PropertyWrite where
  | bit (field : Ident) (mask : UInt16)
  | integer (call field : Ident) (mask : UInt16)
  | counted (call field : Ident) (mask : UInt16)
deriving DecidableEq, Repr

/-- The code that encodes the properties of a class. -/
structure PropertyEncoderCode where
  function : Ident
  record : Ident
  writes : List PropertyWrite

namespace PropertyEncoderCode

open Tokens

/-- The statement that writes a property. -/
def writeOf (d : Description) (field : Field) : Except GenerateError PropertyWrite := do
  let id ← Ident.ofField field.name
  let mask := presenceBit field.index
  let ty ← (d.fieldType field).mapError .description
  if ty.isBit then
    return .bit id mask
  else if ty.isInteger then
    return .integer (callName ty) id mask
  else
    return .counted (callName ty) id mask

/-- The code that encodes the properties of a class. -/
def ofClass (d : Description) (c : Class) (function record : Ident) :
    Except GenerateError PropertyEncoderCode := do
  return { function, record, writes := ← c.properties.toList.mapM (writeOf d) }

/-- Whether a statement writes more than a flag. -/
def writesValue : PropertyWrite → Bool
  | .bit _ _ => false
  | .integer _ _ _ | .counted _ _ _ => true

/-- The statement that sets a flag. -/
def flagTokens (mask : UInt16) : Tokens :=
  words "flags |=" ++ Literal.flags mask ++ words ";"

/-- The tokens of a writing statement. -/
def writeTokens : PropertyWrite → Tokens
  | .bit field mask =>
    words "if properties ." ++ name field ++ words "== Some" ++ parens (words "true") ++
      braces (flagTokens mask)
  | .integer call field mask =>
    words "if let Some" ++ parens (words "value") ++ words "= properties ." ++ name field ++
      braces (flagTokens mask ++ words "w ." ++ name call ++ parens (words "value") ++ words ";")
  | .counted call field mask =>
    words "if let Some" ++ parens (words "value") ++ words "= & properties ." ++ name field ++
      braces (flagTokens mask ++ words "w ." ++ name call ++ parens (words "value") ++
        words "? ;")

/-- The function that encodes the properties of a class. -/
def item (code : PropertyEncoderCode) : Item :=
  if code.writes.isEmpty then
    .function [] "fn" code.function (words "_properties : &" ++ name code.record)
      (resultOf octetsType) (words "Ok" ++ parens (words "Vec :: new" ++ parens []))
  else
    let declare := if code.writes.any writesValue then words "let mut w =" else words "let w ="
    .function [] "fn" code.function (words "properties : &" ++ name code.record)
      (resultOf octetsType)
      (words "let mut flags : u16 = 0 ;" ++ declare ++ runtime "Writer :: new" ++ parens [] ++
        words ";" ++ code.writes.flatMap writeTokens ++
        words "Ok" ++ parens (words "w . into_flagged" ++ parens (words "flags")))

end PropertyEncoderCode

/-! ## All classes -/

namespace PropertyCode

open Tokens

/-- The code for a class: its number, its name among all classes, and the two directions. -/
structure Entry where
  classId : UInt16
  id : Ident
  decoder : PropertyDecoderCode
  encoder : PropertyEncoderCode

/-- The code for a class. -/
def entry (d : Description) (c : Class) : Gen Entry := do
  Gen.report (.generatingProperties c.name c.properties.length)
  let id ← Gen.ofExcept c.typeIdent
  let record ← Gen.ofExcept c.propertiesIdent
  let decode ← Gen.ofExcept (Ident.ofFunction ["decode", c.name, "properties"])
  let encode ← Gen.ofExcept (Ident.ofFunction ["encode", c.name, "properties"])
  let decoder ← Gen.ofExcept (PropertyDecoderCode.ofClass d c decode record)
  let encoder ← Gen.ofExcept (PropertyEncoderCode.ofClass d c encode record)
  return ⟨c.id, id, decoder, encoder⟩

/-- The function that finds the decoder of a class. -/
def decodeDispatch (entries : List Entry) : Item :=
  let unknown := words "Err" ++
    parens (runtime "FrameError :: UnknownClassId" ++ parens (words "class_id"))
  .function (Item.rawDoc " Decode the property payload of a content header frame.") "pub fn"
    (.plain "decode_properties")
    (words "class_id : u16 ," ++ payloadParameter ++ words ",")
    (resultOf (words "Properties"))
    (cases (words "class_id")
      ((entries.map fun e =>
        (Literal.number e.classId.toNat "u16",
          name e.decoder.function ++ parens (words "payload") ++ words ". map" ++
            parens (member "Properties" e.id))) ++
        [(words "_", unknown)]))

/-- The function that finds the encoder of a class. -/
def encodeDispatch (entries : List Entry) : Item :=
  .function (Item.rawDoc " Encode the property payload of a content header frame.") "pub fn"
    (.plain "encode_properties") (words "properties : & Properties") (resultOf octetsType)
    (cases (words "* properties") (entries.map fun e =>
      (member "Properties" e.id ++ parens (words "ref properties"),
        name e.encoder.function ++ parens (words "properties"))))

/-- The code for all classes, in order. -/
def items (d : Description) : Gen (List Item) := do
  let entries ← d.classes.mapM (entry d)
  return [decodeDispatch entries, encodeDispatch entries] ++
    entries.flatMap fun e => [e.decoder.item, e.encoder.item]

end PropertyCode

end WireProtocol
