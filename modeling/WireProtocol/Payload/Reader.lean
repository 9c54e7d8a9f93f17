import WireProtocol.Bytes.Utf8
import WireProtocol.Payload.Error
import WireProtocol.Table.Decode

/-!
# Reading payloads

* `Reader`: a payload, the name of its owner, and how far it has been read.
* `Read`: a reading step. It may fail, and tells also then how far the payload has been read.
* `Read.octet` to `Read.table`: one step per primitive encoding.
* `Read.finish`: the end of the payload.

A step that runs past the end, and octets that are left over at the end, are framing errors that
name the owner and carry the whole payload.
-/

namespace WireProtocol

/-- A payload that is being read. -/
structure Reader where
  name : String
  payload : Bytes
  pos : Nat
deriving DecidableEq, Repr

namespace Reader

/-- A payload of which nothing has been read. -/
def start (name : String) (payload : Bytes) : Reader :=
  ⟨name, payload, 0⟩

/-- The octets still to be read. -/
def rest (r : Reader) : Bytes :=
  r.payload.drop r.pos

/-- The number of octets still to be read. -/
def remaining (r : Reader) : Nat :=
  r.payload.length - r.pos

/-- The payload does not match what is read from it. -/
def framingError (r : Reader) : FrameError :=
  .framing r.name r.payload

/-- The reader after `n` more octets. -/
def advance (n : Nat) (r : Reader) : Reader :=
  { r with pos := r.pos + n }

@[simp] theorem length_rest (r : Reader) : r.rest.length = r.remaining := by
  simp [rest, remaining]

end Reader

/-- A reading step. -/
abbrev Read (α : Type) := ExceptT FrameError (StateM Reader) α

namespace Read

/-- The outcome of a step and the reader after it. -/
def run {α : Type} (step : Read α) (r : Reader) : Except FrameError α × Reader :=
  ExceptT.run step r

/-- The next `n` octets. A payload too short for them is left as it is. -/
def take (n : Nat) : Read Bytes := fun r =>
  if n ≤ r.remaining then
    (.ok (r.rest.take n), r.advance n)
  else
    (.error r.framingError, r)

/-- A big-endian number of `width` octets. -/
def number (width : Nat) : Read Nat := do
  return BigEndian.decode (← take width)

/-- A length of `width` octets and as many octets as it says. The length stays read when too few
octets follow it. -/
def counted (width : Nat) : Read Bytes := do
  take (← number width)

/-- An integer of one octet. -/
def octet : Read UInt8 := do
  return UInt8.ofNat (← number 1)

/-- An integer of two octets. -/
def short : Read UInt16 := do
  return UInt16.ofNat (← number 2)

/-- An integer of four octets. -/
def long : Read UInt32 := do
  return UInt32.ofNat (← number 4)

/-- An integer of eight octets. -/
def longlong : Read UInt64 := do
  return UInt64.ofNat (← number 8)

/-- A point in time, which is an integer of eight octets. -/
def timestamp : Read UInt64 :=
  longlong

/-- A string behind its length in one octet. -/
def shortstr : Read Bytes :=
  counted 1

/-- A string behind its length in four octets. -/
def longstr : Read Bytes :=
  counted 4

/-- A table behind its length in four octets. A malformed body has been read entirely. -/
def table : Read FieldTable := do
  let body ← counted 4
  match FieldTable.decode body with
  | .ok table => return table
  | .error source => throw (.table (← get).name source)

/-- The end of the payload. -/
def finish : Read Unit := do
  let r ← get
  if r.pos = r.payload.length then
    return ()
  else
    throw r.framingError

end Read

/-- Short strings of `name` have to be well-formed UTF-8. -/
def assertUtf8 (name : String) (octets : Bytes) : Except FrameError Unit :=
  if Utf8.isWellFormed octets then .ok () else .error (.invalidUtf8 name)

end WireProtocol
