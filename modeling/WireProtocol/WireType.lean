/-!
# Wire types

The primitive encodings of a protocol.

* `WireType`: the nine encodings, declared in the order of their names.
* `WireType.fixedWidth?`, `WireType.lengthPrefix?`: how wide a value or its length is on the wire.
* `WireType.ofName?`: the type that a primitive name denotes.
-/

namespace WireProtocol

/-- A primitive encoding. Every domain of a description resolves to one of these. -/
inductive WireType where
  | bit
  | long
  | longlong
  | longstr
  | octet
  | short
  | shortstr
  | table
  | timestamp
deriving DecidableEq, Repr

namespace WireType

/-- Every wire type, in order. -/
def all : List WireType :=
  [bit, long, longlong, longstr, octet, short, shortstr, table, timestamp]

/-- The name a description spells the type with. -/
def name : WireType → String
  | bit => "bit"
  | long => "long"
  | longlong => "longlong"
  | longstr => "longstr"
  | octet => "octet"
  | short => "short"
  | shortstr => "shortstr"
  | table => "table"
  | timestamp => "timestamp"

/-- The type of exactly that name. -/
def ofName? (name : String) : Option WireType :=
  all.find? (·.name == name)

/-- The place of a type in the order of all types. -/
def rank (ty : WireType) : Nat :=
  all.idxOf ty

/-- The width in octets of a big-endian integer, for the types that are one. -/
def fixedWidth? : WireType → Option Nat
  | octet => some 1
  | short => some 2
  | long => some 4
  | longlong | timestamp => some 8
  | bit | longstr | shortstr | table => none

/-- The width in octets of the length that comes before a value, for the types that have one. -/
def lengthPrefix? : WireType → Option Nat
  | shortstr => some 1
  | longstr | table => some 4
  | _ => none

/-- Bits are the only values narrower than an octet. -/
def isBit : WireType → Bool
  | bit => true
  | _ => false

/-- Integers are the types of a fixed width. -/
def isInteger (ty : WireType) : Bool :=
  ty.fixedWidth?.isSome

/-- Each type is the one that its own name denotes. -/
theorem ofName?_name (ty : WireType) : ofName? ty.name = some ty := by
  cases ty <;> decide

/-- A name denotes a type only by being its name. -/
theorem name_of_ofName? {name : String} {ty : WireType} (h : ofName? name = some ty) :
    ty.name = name := by
  simpa using List.find?_some h

end WireType

end WireProtocol
