import WireProtocol.Table.Value

/-!
# Comparing field tables

Tables are compared as numbers are: floating-point values by their numeric value, everything else
by identity. Names, kinds and order matter.

* `BinaryFloat`: the two interchange formats, and equality of the numbers that patterns denote.
* `FieldTable.equal`: equality of two tables.
-/

namespace WireProtocol

/-- A binary interchange format: a sign bit, then exponent bits, then fraction bits. -/
structure BinaryFloat where
  exponentBits : Nat
  fractionBits : Nat

namespace BinaryFloat

/-- The format of eight octets. -/
def double : BinaryFloat := ⟨11, 52⟩

/-- The format of four octets. -/
def single : BinaryFloat := ⟨8, 23⟩

/-- A pattern without its sign. -/
def magnitude (format : BinaryFloat) (pattern : Nat) : Nat :=
  pattern % 1 <<< (format.exponentBits + format.fractionBits)

/-- The magnitude of the infinities. All larger ones are not numbers. -/
def infinity (format : BinaryFloat) : Nat :=
  (1 <<< format.exponentBits - 1) <<< format.fractionBits

/-- Whether a pattern is not a number. -/
def isNaN (format : BinaryFloat) (pattern : Nat) : Bool :=
  format.infinity < format.magnitude pattern

/-- Whether two patterns denote equal numbers: they are the same and a number, or both zeros. -/
def equal (format : BinaryFloat) (a b : Nat) : Bool :=
  a == b && !format.isNaN a || format.magnitude a == 0 && format.magnitude b == 0

end BinaryFloat

namespace FieldTable

mutual

/-- Equality of two values. -/
def equalValue : FieldValue → FieldValue → Bool
  | .longstr a, .longstr b => a == b
  | .int32 a, .int32 b => a == b
  | .decimal scale a, .decimal scale' b => scale == scale' && a == b
  | .timestamp a, .timestamp b => a == b
  | .table a, .table b => equalEntries a b
  | .int8 a, .int8 b => a == b
  | .float64 a, .float64 b => BinaryFloat.double.equal a.toNat b.toNat
  | .float32 a, .float32 b => BinaryFloat.single.equal a.toNat b.toNat
  | .int64 a, .int64 b => a == b
  | .int16 a, .int16 b => a == b
  | .bool a, .bool b => a == b
  | .binary a, .binary b => a == b
  | .void, .void => true
  | .array a, .array b => equalValues a b
  | .uint8 a, .uint8 b => a == b
  | .uint16 a, .uint16 b => a == b
  | .uint32 a, .uint32 b => a == b
  | _, _ => false

/-- Equality of two arrays, place by place. -/
def equalValues : List FieldValue → List FieldValue → Bool
  | [], [] => true
  | a :: as, b :: bs => equalValue a b && equalValues as bs
  | _, _ => false

/-- Equality of two tables, place by place. -/
def equalEntries : List (Bytes × FieldValue) → List (Bytes × FieldValue) → Bool
  | [], [] => true
  | (name, a) :: as, (name', b) :: bs => name == name' && equalValue a b && equalEntries as bs
  | _, _ => false

end

/-- Whether two tables have equal entries in the same order. -/
def equal (a b : FieldTable) : Bool :=
  equalEntries a b

end FieldTable

end WireProtocol
