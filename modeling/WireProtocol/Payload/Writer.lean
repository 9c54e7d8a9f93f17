import WireProtocol.Payload.Error
import WireProtocol.Table.Encode

/-!
# Writing payloads

* `Writer`: the octets written so far.
* `Write`: a writing step. It may fail, and then writes nothing.
* `Write.octet` to `Write.table`: one step per primitive encoding.
* `Writer.flagged`: a finished payload behind its presence flags.
-/

namespace WireProtocol

/-- A payload that is being written. -/
structure Writer where
  bytes : Bytes
deriving DecidableEq, Repr

namespace Writer

/-- A payload of which nothing has been written. -/
def empty : Writer :=
  ⟨[]⟩

/-- The octets written so far, behind sixteen presence flags. -/
def flagged (w : Writer) (flags : UInt16) : Bytes :=
  BigEndian.encode 2 flags.toNat ++ w.bytes

end Writer

/-- A writing step. -/
abbrev Write (α : Type) := ExceptT FrameError (StateM Writer) α

namespace Write

/-- The outcome of a step and the writer after it. -/
def run {α : Type} (step : Write α) (w : Writer) : Except FrameError α × Writer :=
  ExceptT.run step w

/-- Octets at the end of what has been written. -/
def append (octets : Bytes) : Write Unit :=
  modify fun w => ⟨w.bytes ++ octets⟩

/-- A big-endian number of `width` octets. -/
def number (width n : Nat) : Write Unit :=
  append (BigEndian.encode width n)

/-- Octets behind their number, which is written in `width` octets and fits them. -/
def counted (width : Nat) (octets : Bytes) : Write Unit := do
  number width octets.length
  append octets

/-- An integer of one octet. -/
def octet (value : UInt8) : Write Unit :=
  number 1 value.toNat

/-- An integer of two octets. -/
def short (value : UInt16) : Write Unit :=
  number 2 value.toNat

/-- An integer of four octets. -/
def long (value : UInt32) : Write Unit :=
  number 4 value.toNat

/-- An integer of eight octets. -/
def longlong (value : UInt64) : Write Unit :=
  number 8 value.toNat

/-- A point in time, which is an integer of eight octets. -/
def timestamp (value : UInt64) : Write Unit :=
  longlong value

/-- A string behind its length in one octet. -/
def shortstr (value : Bytes) : Write Unit :=
  if value.length < UInt8.size then counted 1 value else throw (.shortStrOverflow value.length)

/-- A string behind its length in four octets. -/
def longstr (value : Bytes) : Write Unit :=
  if value.length < UInt32.size then counted 4 value else throw (.longStrOverflow value.length)

/-- A table behind the length of its body in four octets. -/
def table (value : FieldTable) : Write Unit :=
  match value.encode with
  | .ok body => longstr body
  | .error source => throw (.table "table" source)

end Write

end WireProtocol
