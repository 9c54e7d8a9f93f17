import WireProtocol.Bytes.BigEndian

/-!
# Field tables

Dynamic values as peers exchange them.

* `FieldValue`: a value of one of seventeen kinds, two of which hold further values.
* `FieldTable`: named values in order; names may repeat.
* `FieldValue.Kind`: the kinds, each with the octet that announces it on the wire.
-/

namespace WireProtocol

/-- A dynamic value. Floating-point numbers are kept as their bit patterns, so that every pattern,
those of the NaNs included, is a value of its own. -/
inductive FieldValue where
  | longstr (bytes : Bytes)
  | int32 (value : Int32)
  | decimal (scale : UInt8) (value : UInt32)
  | timestamp (value : UInt64)
  | table (entries : List (Bytes × FieldValue))
  | int8 (value : Int8)
  | float64 (bits : UInt64)
  | float32 (bits : UInt32)
  | int64 (value : Int64)
  | int16 (value : Int16)
  | bool (value : Bool)
  | binary (bytes : Bytes)
  | void
  | array (values : List FieldValue)
  | uint8 (value : UInt8)
  | uint16 (value : UInt16)
  | uint32 (value : UInt32)

/-- Named values, in the order in which they are carried. -/
abbrev FieldTable := List (Bytes × FieldValue)

namespace FieldValue

/-- The kind of a value. -/
inductive Kind where
  | longstr
  | int32
  | decimal
  | timestamp
  | table
  | int8
  | float64
  | float32
  | int64
  | int16
  | bool
  | binary
  | void
  | array
  | uint8
  | uint16
  | uint32
deriving DecidableEq, Repr

namespace Kind

/-- Every kind of value. -/
def all : List Kind :=
  [longstr, int32, decimal, timestamp, table, int8, float64, float32, int64, int16, bool, binary,
    void, array, uint8, uint16, uint32]

/-- The letter that announces a value of the kind. -/
def letter : Kind → Char
  | longstr => 'S'
  | int32 => 'I'
  | decimal => 'D'
  | timestamp => 'T'
  | table => 'F'
  | int8 => 'b'
  | float64 => 'd'
  | float32 => 'f'
  | int64 => 'l'
  | int16 => 's'
  | bool => 't'
  | binary => 'x'
  | void => 'V'
  | array => 'A'
  | uint8 => 'B'
  | uint16 => 'u'
  | uint32 => 'i'

/-- The tag octet of the kind. -/
def tag (kind : Kind) : UInt8 :=
  kind.letter.toUInt8

/-- The kind that a tag octet announces. -/
def ofTag? (tag : UInt8) : Option Kind :=
  all.find? (·.tag == tag)

theorem mem_all (kind : Kind) : kind ∈ all := by
  cases kind <;> decide

/-- Each kind is announced by its own tag. -/
theorem ofTag?_tag (kind : Kind) : ofTag? kind.tag = some kind := by
  cases kind <;> decide

/-- A tag announces a kind only by being its tag. -/
theorem tag_of_ofTag? {tag : UInt8} {kind : Kind} (h : ofTag? tag = some kind) :
    kind.tag = tag := by
  simpa using List.find?_some h

end Kind

/-- The kind of a value. -/
def kind : FieldValue → Kind
  | longstr _ => .longstr
  | int32 _ => .int32
  | decimal _ _ => .decimal
  | timestamp _ => .timestamp
  | table _ => .table
  | int8 _ => .int8
  | float64 _ => .float64
  | float32 _ => .float32
  | int64 _ => .int64
  | int16 _ => .int16
  | bool _ => .bool
  | binary _ => .binary
  | void => .void
  | array _ => .array
  | uint8 _ => .uint8
  | uint16 _ => .uint16
  | uint32 _ => .uint32

end FieldValue

namespace FieldTable

/-- A new entry goes to the end and replaces none. -/
def insert (table : FieldTable) (name : Bytes) (value : FieldValue) : FieldTable :=
  table ++ [(name, value)]

/-- The first value of that name. -/
def value? (table : FieldTable) (name : Bytes) : Option FieldValue :=
  (table.find? (·.1 == name)).map (·.2)

end FieldTable

end WireProtocol
