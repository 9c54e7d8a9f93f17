import WireProtocol.Table.Value
import WireProtocol.Table.Error

/-!
# Writing field tables

* `FieldValue.scalarPayload`: the payload of a value that is neither a string nor a container.
* `FieldTable.encode`: the body of a table, or why the table has none.
-/

namespace WireProtocol

/-- The octets behind the tag of a value of a fixed width. -/
def FieldValue.scalarPayload : FieldValue → Bytes
  | .int32 value => BigEndian.encode 4 value.toUInt32.toNat
  | .decimal scale value => scale :: BigEndian.encode 4 value.toNat
  | .timestamp value => BigEndian.encode 8 value.toNat
  | .int8 value => [value.toUInt8]
  | .float64 bits => BigEndian.encode 8 bits.toNat
  | .float32 bits => BigEndian.encode 4 bits.toNat
  | .int64 value => BigEndian.encode 8 value.toUInt64.toNat
  | .int16 value => BigEndian.encode 2 value.toUInt16.toNat
  | .bool value => [value.toUInt8]
  | .uint8 value => [value]
  | .uint16 value => BigEndian.encode 2 value.toNat
  | .uint32 value => BigEndian.encode 4 value.toNat
  | .longstr _ | .table _ | .binary _ | .void | .array _ => []

namespace FieldTable

/-- Octets behind their number, which has to fit four octets. -/
def counted (octets : Bytes) : Except TableError Bytes :=
  if octets.length < UInt32.size then
    .ok (BigEndian.encode 4 octets.length ++ octets)
  else
    .error (.tooLarge octets.length)

/-- A name behind its length, which has to fit one octet. -/
def countedName (name : Bytes) : Except TableError Bytes :=
  if name.length < UInt8.size then
    .ok (BigEndian.encode 1 name.length ++ name)
  else
    .error (.nameTooLong name.length)

mutual

/-- A tag and its payload. -/
def encodeValue : FieldValue → Except TableError Bytes
  | .longstr bytes => do
    let payload ← counted bytes
    return FieldValue.Kind.longstr.tag :: payload
  | .binary bytes => do
    let payload ← counted bytes
    return FieldValue.Kind.binary.tag :: payload
  | .table entries => do
    let body ← encodeEntries entries
    let payload ← counted body
    return FieldValue.Kind.table.tag :: payload
  | .array values => do
    let body ← encodeValues values
    let payload ← counted body
    return FieldValue.Kind.array.tag :: payload
  | value => .ok (value.kind.tag :: value.scalarPayload)

/-- The values of an array, one after the other. -/
def encodeValues : List FieldValue → Except TableError Bytes
  | [] => .ok []
  | value :: values => do
    let first ← encodeValue value
    let others ← encodeValues values
    return first ++ others

/-- The entries of a table, one after the other, each name before its value. -/
def encodeEntries : List (Bytes × FieldValue) → Except TableError Bytes
  | [] => .ok []
  | (name, value) :: entries => do
    let label ← countedName name
    let first ← encodeValue value
    let others ← encodeEntries entries
    return label ++ first ++ others

end

/-- The body of a table, without its own length. -/
def encode (table : FieldTable) : Except TableError Bytes :=
  encodeEntries table

end FieldTable

end WireProtocol
