import WireProtocol.Codec.Value
import WireProtocol.Description.Naming
import WireProtocol.Layout.Fields

/-!
# Method payloads

* `MethodLayout`: what the payload of a method consists of.
* `MethodLayout.decode`, `MethodLayout.encode`: a record of a method (one value per argument) in its
  payload.
* `MethodLayout.defaultRecord`: the record in which every argument has its default.
* `MethodLayout.isSynchronous`: whether the sender of a record waits for a reply.

A payload is read to its end before its short strings are checked, so that a payload that does not
match the layout is reported as such whatever its strings hold.
-/

namespace WireProtocol

/-- A method with the types of its arguments. -/
structure MethodLayout where
  name : String
  hasContent : Bool
  synchronous : Bool
  arguments : List (Field × WireType)

/-- The layout of a method, if all of its domains resolve. -/
def Description.methodLayout (d : Description) (method : Method) :
    Except DescriptionError MethodLayout := do
  return {
    name := method.qualifiedName
    hasContent := method.hasContent
    synchronous := method.synchronous
    arguments := ← d.classify method.arguments }

/-! ## Bits in an octet -/

/-- The octet that holds up to eight bits, the first in the least significant place. -/
def packBits : List Bool → UInt8
  | [] => 0
  | bit :: bits => bit.toUInt8 + 2 * packBits bits

/-- So many bits of an octet, from the least significant one on. -/
def unpackBits (count : Nat) (octet : UInt8) : List Bool :=
  (List.range count).map fun place => octet.toNat.testBit place

namespace Chunk

variable {α : Type}

/-- The values of a chunk at the front of a payload. -/
def read : Chunk α → Read (List WireValue)
  | fixedWidth _ ty => return [← WireValue.read ty]
  | variableWidth _ ty => return [← WireValue.read ty]
  | bits members => return (unpackBits members.length (← Read.octet)).map .bit

/-- The values of a chunk at the end of a payload. -/
def write : Chunk WireValue → Write Unit
  | fixedWidth value _ => value.write
  | variableWidth value _ => value.write
  | bits members => Write.octet (packBits (members.map WireValue.isSet))

/-- The values of chunks at the front of a payload. -/
def readAll : List (Chunk α) → Read (List WireValue)
  | [] => return []
  | chunk :: chunks => do
    let values ← chunk.read
    let others ← readAll chunks
    return values ++ others

/-- The values of chunks at the end of a payload. -/
def writeAll : List (Chunk WireValue) → Write Unit
  | [] => return ()
  | chunk :: chunks => do
    chunk.write
    writeAll chunks

end Chunk

/-- The short strings of a record have to be well-formed, the first one before the others. -/
def checkTexts (name : String) : List WireValue → Except FrameError Unit
  | [] => .ok ()
  | .shortstr bytes :: values => do
    assertUtf8 name bytes
    checkTexts name values
  | _ :: values => checkTexts name values

namespace MethodLayout

/-- The types of the arguments. -/
def types (m : MethodLayout) : List WireType :=
  m.arguments.map (·.2)

/-- The chunks that the payload consists of. -/
def chunks (m : MethodLayout) : List (Chunk Field) :=
  coalesce m.arguments

/-- The record in a payload, all of which has to be read. -/
def readRecord (m : MethodLayout) : Read (List WireValue) := do
  let record ← Chunk.readAll m.chunks
  Read.finish
  return record

/-- The record that a payload holds. The short strings of a method that announces content are not
checked. -/
def decode (m : MethodLayout) (payload : Bytes) : Except FrameError (List WireValue) := do
  let record ← (m.readRecord.run (Reader.start m.name payload)).1
  if !m.hasContent then
    checkTexts m.name record
  return record

/-- The values of a record in the chunks of the layout. -/
def recordChunks (m : MethodLayout) (record : List WireValue) : List (Chunk WireValue) :=
  coalesce ((m.arguments.zip record).map fun ((_, ty), value) => (value, ty))

/-- The payload that holds a record. -/
def encode (m : MethodLayout) (record : List WireValue) : Except FrameError Bytes :=
  match Write.run (Chunk.writeAll (m.recordChunks record)) Writer.empty with
  | (.ok (), w) => .ok w.bytes
  | (.error e, _) => .error e

/-- What an argument starts out with: its declared default, or zero. -/
def defaultOf (field : Field) (ty : WireType) : WireValue :=
  (field.default.bind (WireValue.ofDefault? ty)).getD (WireValue.zero ty)

/-- The record in which every argument has its default. -/
def defaultRecord (m : MethodLayout) : List WireValue :=
  m.arguments.map fun (field, ty) => defaultOf field ty

/-- Whether an argument tells the receiver not to reply. -/
def isNoWait (field : Field) (ty : WireType) : Bool :=
  ty.isBit && Naming.isNoWait field.name

/-- Whether the sender of a record waits for a reply: the method is synchronous, and its first
argument that could tell the receiver not to reply does not. -/
def isSynchronous (m : MethodLayout) (record : List WireValue) : Bool :=
  m.synchronous &&
    match (m.arguments.zip record).find? fun ((field, ty), _) => isNoWait field ty with
    | some (_, value) => !value.isSet
    | none => true

end MethodLayout

end WireProtocol
