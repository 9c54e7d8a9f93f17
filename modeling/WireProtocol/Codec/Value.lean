import WireProtocol.Description.Field
import WireProtocol.Payload.Reader
import WireProtocol.Payload.Writer
import WireProtocol.WireType

/-!
# Values of the primitive encodings

* `WireValue`: a value of a wire type.
* `WireValue.read`, `WireValue.write`: a value in a payload.
* `WireValue.zero`: what a value is when nothing else is said.
* `WireValue.ofDefault?`: the value that a declared default stands for, if it fits the type.
-/

namespace WireProtocol

/-- A value of a wire type. -/
inductive WireValue where
  | bit (value : Bool)
  | octet (value : UInt8)
  | short (value : UInt16)
  | long (value : UInt32)
  | longlong (value : UInt64)
  | timestamp (value : UInt64)
  | shortstr (bytes : Bytes)
  | longstr (bytes : Bytes)
  | table (entries : FieldTable)

namespace WireValue

/-- The type of a value. -/
def wireType : WireValue → WireType
  | bit _ => .bit
  | octet _ => .octet
  | short _ => .short
  | long _ => .long
  | longlong _ => .longlong
  | timestamp _ => .timestamp
  | shortstr _ => .shortstr
  | longstr _ => .longstr
  | table _ => .table

/-- The value of a type that is false, zero or empty. -/
def zero : WireType → WireValue
  | .bit => bit false
  | .octet => octet 0
  | .short => short 0
  | .long => long 0
  | .longlong => longlong 0
  | .timestamp => timestamp 0
  | .shortstr => shortstr []
  | .longstr => longstr []
  | .table => table []

@[simp] theorem wireType_zero (ty : WireType) : (zero ty).wireType = ty := by
  cases ty <;> rfl

/-- The truth value of a bit. Values of other types have none and count as false. -/
def isSet : WireValue → Bool
  | bit value => value
  | _ => false

/-- A value of a type at the front of a payload. A bit that stands alone is the least significant
one of an octet. -/
def read : WireType → Read WireValue
  | .bit => return bit ((← Read.octet).toNat.testBit 0)
  | .octet => return octet (← Read.octet)
  | .short => return short (← Read.short)
  | .long => return long (← Read.long)
  | .longlong => return longlong (← Read.longlong)
  | .timestamp => return timestamp (← Read.timestamp)
  | .shortstr => return shortstr (← Read.shortstr)
  | .longstr => return longstr (← Read.longstr)
  | .table => return table (← Read.table)

/-- A value at the end of a payload. -/
def write : WireValue → Write Unit
  | bit value => Write.octet value.toUInt8
  | octet value => Write.octet value
  | short value => Write.short value
  | long value => Write.long value
  | longlong value => Write.longlong value
  | timestamp value => Write.timestamp value
  | shortstr bytes => Write.shortstr bytes
  | longstr bytes => Write.longstr bytes
  | table entries => Write.table entries

/-- A number, if it lies below a bound. -/
def below? (bound : Nat) (value : UInt64) : Option UInt64 :=
  if value.toNat < bound then some value else none

/-- The value of a type that a number stands for, if it fits. Zero and one also stand for truth
values. -/
def ofNumber? (value : UInt64) : WireType → Option WireValue
  | .bit => if value = 0 then some (bit false) else if value = 1 then some (bit true) else none
  | .octet => (below? UInt8.size value).map fun value => octet value.toUInt8
  | .short => (below? UInt16.size value).map fun value => short value.toUInt16
  | .long => (below? UInt32.size value).map fun value => long value.toUInt32
  | .longlong => some (longlong value)
  | .timestamp => some (timestamp value)
  | _ => none

/-- The value of a type that a text stands for: its octets, however many they are. -/
def ofText? (value : String) : WireType → Option WireValue
  | .shortstr => some (shortstr (Utf8.encode value))
  | .longstr => some (longstr (Utf8.encode value))
  | _ => none

/-- The value that a declared default stands for in a type, if it fits. -/
def ofDefault? (ty : WireType) : DefaultValue → Option WireValue
  | .bool value => if ty = .bit then some (bit value) else none
  | .int value => ofNumber? value ty
  | .text value => ofText? value ty
  | .emptyTable => if ty = .table then some (table []) else none

/-- A fitting number has the type that it fits. -/
theorem wireType_of_ofNumber? {ty : WireType} {number : UInt64} {value : WireValue}
    (h : ofNumber? number ty = some value) : value.wireType = ty := by
  cases ty <;> simp only [ofNumber?, reduceCtorEq] at h
  case bit =>
    split at h
    · cases h; rfl
    · split at h <;> cases h
      rfl
  case octet | short | long =>
    obtain ⟨_, _, rfl⟩ := Option.map_eq_some_iff.mp h
    rfl
  case longlong | timestamp => cases h; rfl

/-- A fitting default has the type that it fits. -/
theorem wireType_of_ofDefault? {ty : WireType} {default : DefaultValue} {value : WireValue}
    (h : ofDefault? ty default = some value) : value.wireType = ty := by
  cases default with
  | bool b => simp only [ofDefault?] at h; split at h <;> cases h; exact .symm ‹_›
  | int n => exact wireType_of_ofNumber? h
  | text t => cases ty <;> simp only [ofDefault?, ofText?, reduceCtorEq] at h <;> cases h <;> rfl
  | emptyTable => simp only [ofDefault?] at h; split at h <;> cases h; exact .symm ‹_›

end WireValue

end WireProtocol
