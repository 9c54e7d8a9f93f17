import WireProtocol.Codec.Method
import WireProtocol.Emit.Item
import WireProtocol.Emit.Names
import WireProtocol.Emit.Trace

/-!
# Code for method payloads

* `DecoderCode`, `EncoderCode`: the statements of the code for one method.
* `MethodCode.items`: the code for all methods, after the tables about them.

The statements of a decoder and of an encoder come from the same chunks. Reads and writes are named
after the primitive encodings; a group of bits is read and written as an octet.
-/

namespace WireProtocol

/-- The step that reads or writes a wire type. -/
def callName : WireType → Ident
  | .bit | .octet => .plain "octet"
  | .short => .plain "short"
  | .long => .plain "long"
  | .longlong => .plain "longlong"
  | .timestamp => .plain "timestamp"
  | .shortstr => .plain "shortstr"
  | .longstr => .plain "longstr"
  | .table => .plain "table"

/-- The local that holds the value of a field. -/
def Field.local (f : Field) : Ident :=
  .plain s!"f{f.index}"

/-- The local that holds the octet of a group of bits that begins at an index. -/
def bitsLocal (start : Nat) : Ident :=
  .plain s!"bits{start}"

/-- The index of the first field of a group. -/
def groupStart (members : List Field) : Nat :=
  (members.head?.map (·.index)).getD 0

/-! ## Decoders -/

/-- A statement that reads: the local that it defines and the step. -/
structure ReadStatement where
  target : Ident
  call : Ident
deriving DecidableEq, Repr

/-- A statement behind the end of the payload: a check of a short string, or a bit of an octet. -/
inductive CheckStatement where
  | text (slot : Ident)
  | bit (target source : Ident) (mask : UInt8)
deriving DecidableEq, Repr

/-- The code that decodes a method. -/
structure DecoderCode where
  function : Ident
  record : Ident
  owner : String
  reads : List ReadStatement
  checks : List CheckStatement
  fields : List (Ident × Ident)

namespace DecoderCode

open Tokens

/-- The mask of a bit in its group. -/
def mask (offset : Nat) : UInt8 :=
  UInt8.ofNat (1 <<< offset)

/-- The statement that reads a chunk. -/
def readOf : Chunk Field → ReadStatement
  | .fixedWidth field ty => ⟨field.local, callName ty⟩
  | .variableWidth field ty => ⟨field.local, callName ty⟩
  | .bits members => ⟨bitsLocal (groupStart members), callName .bit⟩

/-- The statements for a chunk behind the end of the payload. -/
def checksOf (hasContent : Bool) : Chunk Field → List CheckStatement
  | .fixedWidth _ _ => []
  | .variableWidth field ty =>
    if ty = .shortstr ∧ !hasContent then [.text field.local] else []
  | .bits members =>
    members.zipIdx.map fun (field, offset) =>
      .bit field.local (bitsLocal (groupStart members)) (mask offset)

/-- The code that decodes a method from its chunks. -/
def ofMethod (m : Method) (function record : Ident) (chunks : List (Chunk Field)) :
    Except GenerateError DecoderCode := do
  let fields ← m.arguments.toList.mapM fun field =>
    return (← Ident.ofField field.name, field.local)
  return {
    function, record
    owner := m.qualifiedName
    reads := chunks.map readOf
    checks := chunks.flatMap (checksOf m.hasContent)
    fields }

/-- The tokens of a reading statement. -/
def readTokens (statement : ReadStatement) : Tokens :=
  words "let" ++ name statement.target ++ words "= r ." ++ name statement.call ++ parens [] ++
    words "? ;"

/-- The tokens of a statement behind the end of the payload. -/
def checkTokens (owner : String) : CheckStatement → Tokens
  | .text slot =>
    runtime "assert_utf8" ++ parens (Literal.text owner ++ words ", &" ++ name slot) ++
      words "? ;"
  | .bit target source mask =>
    words "let" ++ name target ++ words "=" ++
      parens (name source ++ words "&" ++ Literal.number mask.toNat "u8") ++ words "!= 0u8 ;"

/-- The record of the locals. -/
def recordTokens (record : Ident) (fields : List (Ident × Ident)) : Tokens :=
  words "Ok" ++ parens (name record ++
    braces (fields.flatMap fun (field, slot) =>
      name field ++ words ":" ++ name slot ++ words ","))

/-- The function that decodes a method. -/
def item (code : DecoderCode) : Item :=
  let declare := if code.reads.isEmpty then words "let r =" else words "let mut r ="
  .function [] "fn" code.function payloadParameter (resultOf (name code.record))
    (declare ++ runtime "Reader :: new" ++
      parens (Literal.text code.owner ++ words ", payload") ++ words ";" ++
      code.reads.flatMap readTokens ++
      words "r . finish" ++ parens [] ++ words "? ;" ++
      code.checks.flatMap (checkTokens code.owner) ++
      recordTokens code.record code.fields)

end DecoderCode

/-! ## Encoders -/

/-- A statement that writes: an integer, something behind its length, or bits, each with the place
to which it is shifted. -/
inductive WriteStatement where
  | integer (call field : Ident)
  | counted (call field : Ident)
  | bits (call : Ident) (members : List (Ident × Nat))
deriving DecidableEq, Repr

/-- The code that encodes a method. -/
structure EncoderCode where
  function : Ident
  record : Ident
  writes : List WriteStatement

namespace EncoderCode

open Tokens

/-- The statement that writes a chunk. -/
def writeOf : Chunk Field → Except GenerateError WriteStatement
  | .fixedWidth field ty => return .integer (callName ty) (← Ident.ofField field.name)
  | .variableWidth field ty => return .counted (callName ty) (← Ident.ofField field.name)
  | .bits members => do
    let ids ← members.mapM fun field => Ident.ofField field.name
    return .bits (callName .bit) ids.zipIdx

/-- The code that encodes a method from its chunks. -/
def ofChunks (function record : Ident) (chunks : List (Chunk Field)) :
    Except GenerateError EncoderCode := do
  return { function, record, writes := ← chunks.mapM writeOf }

/-- A bit of the record at its place in an octet. -/
def memberTokens (member : Ident × Nat) : Tokens :=
  let octet := words "u8 :: from" ++ parens (words "record ." ++ name member.1)
  if member.2 = 0 then octet
  else parens (octet ++ words "<<" ++ Literal.number member.2 "u8")

/-- The tokens of a writing statement. -/
def writeTokens : WriteStatement → Tokens
  | .integer call field =>
    words "w ." ++ name call ++ parens (words "record ." ++ name field) ++ words ";"
  | .counted call field =>
    words "w ." ++ name call ++ parens (words "& record ." ++ name field) ++ words "? ;"
  | .bits call members =>
    words "w ." ++ name call ++ parens ((words "|").intercalate (members.map memberTokens)) ++
      words ";"

/-- The function that encodes a method. A record without fields is not looked at. -/
def item (code : EncoderCode) : Item :=
  if code.writes.isEmpty then
    .function [] "fn" code.function (words "_record : &" ++ name code.record)
      (resultOf octetsType)
      (words "Ok" ++ parens (runtime "Writer :: new" ++ parens [] ++ words ". into_bytes" ++
        parens []))
  else
    .function [] "fn" code.function (words "record : &" ++ name code.record)
      (resultOf octetsType)
      (words "let mut w =" ++ runtime "Writer :: new" ++ parens [] ++ words ";" ++
        code.writes.flatMap writeTokens ++
        words "Ok" ++ parens (words "w . into_bytes" ++ parens []))

end EncoderCode

/-! ## All methods -/

namespace MethodCode

open Tokens

/-- What the tables say about a method: its name in code, the method, and whether the sender of a
record waits for a reply. -/
structure Entry where
  id : Ident
  method : Method
  synchronous : Tokens × Tokens

/-- The first argument that could tell the receiver not to reply. -/
def noWait? (d : Description) : List Field → Except GenerateError (Option Field)
  | [] => .ok none
  | field :: fields => do
    if Naming.isNoWait field.name then
      let ty ← (d.fieldType field).mapError .description
      if ty.isBit then
        return some field
    noWait? d fields

/-- The case of a method in the question whether the sender waits for a reply. -/
def synchronousArm (d : Description) (m : Method) (id : Ident) :
    Except GenerateError (Tokens × Tokens) := do
  let variant := member "Method" id
  let overriding ← if m.synchronous then noWait? d m.arguments.toList else pure none
  match overriding with
  | some field =>
    let flag ← Ident.ofField field.name
    return (variant ++ parens (words "ref record"), words "! record ." ++ name flag)
  | none => return (variant ++ parens (words "_"), Literal.bool m.synchronous)

/-- What the tables say about a method. -/
def entry (d : Description) (m : Method) : Except GenerateError Entry := do
  let id ← m.typeIdent
  return ⟨id, m, ← synchronousArm d m id⟩

/-- The ids of a method. -/
def idsTokens (m : Method) : Tokens :=
  parens (Literal.number m.classId.toNat "u16" ++ words "," ++ Literal.number m.id.toNat "u16")

/-- The names of the arguments of a method. -/
def fieldNamesTokens (m : Method) : Tokens :=
  words "&" ++ brackets (commaSeparated
    (m.arguments.toList.map fun field => Literal.text (Naming.fieldName field.name)))

/-- A table over the names of the methods. -/
def table (front : Tokens) (modifiers function : String) (result : Tokens)
    (arms : List (Tokens × Tokens)) : Item :=
  .function front modifiers (.plain function) (words "name : MethodName") result
    (cases (words "name") arms)

/-- The tables about the methods. -/
def tables (d : Description) : Except GenerateError (List Item) := do
  let entries ← d.methods.mapM (entry d)
  let byName (answer : Entry → Tokens) : List (Tokens × Tokens) :=
    entries.map fun e => (member "MethodName" e.id, answer e)
  let unknown := words "Err" ++ parens (runtime "FrameError :: UnknownMethodId" ++
    braces (words "class_id , method_id"))
  return [
    .function (Item.rawDoc " Resolve a wire `(class id, method id)` pair.") "pub fn"
      (.plain "lookup_method_name") (words "class_id : u16 , method_id : u16 ,")
      (resultOf (words "MethodName"))
      (cases (parens (words "class_id , method_id"))
        ((entries.map fun e =>
          (idsTokens e.method, words "Ok" ++ parens (member "MethodName" e.id))) ++
          [(words "_", unknown)])),
    table Item.mustUse "pub const fn" "method_id" (parens (words "u16 , u16"))
      (byName fun e => idsTokens e.method),
    table Item.mustUse "pub const fn" "method_has_content" (words "bool")
      (byName fun e => Literal.bool e.method.hasContent),
    table (Item.rawDoc " Argument names in wire order." ++ Item.mustUse) "pub const fn"
      "method_fieldnames" (words "& 'static" ++ brackets (words "& 'static str"))
      (byName fun e => fieldNamesTokens e.method),
    table (Item.rawDoc " A record of the named method holding its default arguments." ++
      Item.mustUse) "pub fn" "method_record" (words "Method")
      (byName fun e => member "Method" e.id ++
        parens (name e.id ++ words ":: default" ++ parens [])),
    .function (Item.rawDoc " Whether the sender of this method waits for a reply." ++
      Item.mustUse) "pub const fn" (.plain "is_method_synchronous") (words "method : & Method")
      (words "bool") (cases (words "* method") (entries.map (·.synchronous)))]

/-- The chunks of the arguments of a method. -/
def chunks (d : Description) (m : Method) : Except GenerateError (List (Chunk Field)) :=
  (d.packFields m.arguments).mapError .description

/-- The code that decodes a method. -/
def decoder (d : Description) (m : Method) : Gen DecoderCode := do
  Gen.report (.generatingMethod m.qualifiedName)
  let record ← Gen.ofExcept m.typeIdent
  let function ← Gen.ofExcept (Ident.ofFunction ["decode", m.className, m.name])
  let chunks ← Gen.ofExcept (chunks d m)
  Gen.ofExcept (DecoderCode.ofMethod m function record chunks)

/-- The code that encodes a method. -/
def encoder (d : Description) (m : Method) : Except GenerateError EncoderCode := do
  let record ← m.typeIdent
  let function ← Ident.ofFunction ["encode", m.className, m.name]
  EncoderCode.ofChunks function record (← chunks d m)

/-- The function that finds the decoder of a method. -/
def decodeDispatch (codes : List DecoderCode) : Item :=
  .function (Item.rawDoc " Decode the argument payload of a method frame.") "pub fn"
    (.plain "decode_method_fields")
    (words "name : MethodName ," ++ payloadParameter ++ words ",")
    (resultOf (words "Method"))
    (cases (words "name") (codes.map fun code =>
      (member "MethodName" code.record,
        name code.function ++ parens (words "payload") ++ words ". map" ++
          parens (member "Method" code.record))))

/-- The function that finds the encoder of a method. -/
def encodeDispatch (codes : List EncoderCode) : Item :=
  .function (Item.rawDoc " Encode the argument payload of a method frame.") "pub fn"
    (.plain "encode_method_fields") (words "method : & Method") (resultOf octetsType)
    (cases (words "* method") (codes.map fun code =>
      (member "Method" code.record ++ parens (words "ref record"),
        name code.function ++ parens (words "record"))))

/-- The code for all methods, in order. -/
def items (d : Description) : Gen (List Item) := do
  let tables ← Gen.ofExcept (tables d)
  let decoders ← d.methods.mapM (decoder d)
  let encoders ← Gen.ofExcept (d.methods.mapM (encoder d))
  return tables ++ [decodeDispatch decoders] ++ decoders.map (·.item) ++
    [encodeDispatch encoders] ++ encoders.map (·.item)

end MethodCode

end WireProtocol
