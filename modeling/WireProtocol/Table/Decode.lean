import WireProtocol.Table.Value
import WireProtocol.Table.Cursor

/-!
# Reading field tables

The body of a table is a run of entries: a name with its length in one octet, then a value. A value
is a tag octet and a payload, whose form the tag decides.

* `FieldValue.Kind.form`: the form of the payload of each kind.
* `FieldItem`: a value whose payload has been read but whose contents, if it is a container, have not.
* `FieldTable.decode`: the table that a body holds.
-/

namespace WireProtocol

/-- The form of a payload: so many octets, an octet and then so many more, or octets whose number
comes first in four octets. -/
inductive PayloadForm where
  | fixed (width : Nat)
  | scaled (width : Nat)
  | counted
deriving DecidableEq, Repr

/-- The form of the payload of a kind. -/
def FieldValue.Kind.form : FieldValue.Kind → PayloadForm
  | .void => .fixed 0
  | .int8 | .bool | .uint8 => .fixed 1
  | .int16 | .uint16 => .fixed 2
  | .int32 | .float32 | .uint32 => .fixed 4
  | .timestamp | .float64 | .int64 => .fixed 8
  | .decimal => .scaled 4
  | .longstr | .table | .binary | .array => .counted

/-- The octets of a payload of the form. A scaled payload is read in two steps. -/
def PayloadForm.read (form : PayloadForm) (c : Cursor) : Except TableError (Bytes × Cursor) :=
  match form with
  | .fixed width => c.take width
  | .scaled width => do
    let (scale, c) ← c.take 1
    let (value, c) ← c.take width
    return (scale ++ value, c)
  | .counted => c.takePrefixed 4

/-- What reading leaves is shorter by at least the payload. -/
theorem PayloadForm.read_length {form : PayloadForm} {c c' : Cursor} {payload : Bytes}
    (h : form.read c = .ok (payload, c')) :
    payload.length + c'.rest.length ≤ c.rest.length := by
  cases form with
  | fixed width => exact Nat.le_of_eq (Cursor.take_length h)
  | scaled width =>
    simp only [PayloadForm.read, bind, Except.bind] at h
    split at h
    · cases h
    · rename_i first
      split at h
      · cases h
      · rename_i second
        simp only [pure, Except.pure, Except.ok.injEq, Prod.mk.injEq] at h
        obtain ⟨rfl, rfl⟩ := h
        have := Cursor.take_length first
        have := Cursor.take_length second
        simp only [List.length_append]
        omega
  | counted =>
    have := Cursor.takePrefixed_length h
    omega

/-- A value that has been read up to the end of its payload: finished, or a container of which
only the body is known. -/
inductive FieldItem where
  | value (v : FieldValue)
  | table (body : Bytes)
  | array (body : Bytes)

namespace FieldItem

/-- The octets that remain to be read inside the item. -/
def body : FieldItem → Bytes
  | value _ => []
  | table body => body
  | array body => body

/-- The item of a kind with that payload. A boolean is true unless its octet is zero. -/
def ofPayload (kind : FieldValue.Kind) (payload : Bytes) : FieldItem :=
  let number := BigEndian.decode payload
  match kind with
  | .longstr => value (.longstr payload)
  | .int32 => value (.int32 (UInt32.ofNat number).toInt32)
  | .decimal =>
    value (.decimal (payload.headD 0) (UInt32.ofNat (BigEndian.decode payload.tail)))
  | .timestamp => value (.timestamp (UInt64.ofNat number))
  | .table => table payload
  | .int8 => value (.int8 (UInt8.ofNat number).toInt8)
  | .float64 => value (.float64 (UInt64.ofNat number))
  | .float32 => value (.float32 (UInt32.ofNat number))
  | .int64 => value (.int64 (UInt64.ofNat number).toInt64)
  | .int16 => value (.int16 (UInt16.ofNat number).toInt16)
  | .bool => value (.bool (number != 0))
  | .binary => value (.binary payload)
  | .void => value .void
  | .array => array payload
  | .uint8 => value (.uint8 (UInt8.ofNat number))
  | .uint16 => value (.uint16 (UInt16.ofNat number))
  | .uint32 => value (.uint32 (UInt32.ofNat number))

theorem body_ofPayload_length (kind : FieldValue.Kind) (payload : Bytes) :
    (ofPayload kind payload).body.length ≤ payload.length := by
  cases kind <;> simp [ofPayload, body]

/-- A tag and its payload. An unknown tag is reported at its own offset. -/
def read (c : Cursor) : Except TableError (FieldItem × Cursor) :=
  match c.take 1 with
  | .error e => .error e
  | .ok (tag, c') =>
    match FieldValue.Kind.ofTag? (tag.headD 0) with
    | none => .error (.unknownTag (tag.headD 0) c.pos)
    | some kind =>
      match kind.form.read c' with
      | .error e => .error e
      | .ok (payload, c'') => .ok (ofPayload kind payload, c'')

/-- An item takes at least its tag from the cursor, and what remains inside it besides. -/
theorem read_length {c c' : Cursor} {item : FieldItem} (h : read c = .ok (item, c')) :
    item.body.length + c'.rest.length < c.rest.length := by
  unfold read at h
  split at h
  · cases h
  · rename_i tag c₁ first
    split at h
    · cases h
    · rename_i kind known
      split at h
      · cases h
      · rename_i payload c₂ second
        cases h
        have := Cursor.take_length first
        have := (Cursor.take_eq_ok.mp first).1
        have := PayloadForm.read_length second
        have := body_ofPayload_length kind payload
        omega

end FieldItem

namespace FieldTable

mutual

/-- The entries from a place to the end of a table body. -/
def decodeEntries (c : Cursor) : Except TableError FieldTable :=
  if c.rest.isEmpty then
    .ok []
  else
    match _hn : c.takePrefixed 1 with
    | .error e => .error e
    | .ok (name, c₁) =>
      match _hi : FieldItem.read c₁ with
      | .error e => .error e
      | .ok (item, c₂) =>
        match decodeItem item with
        | .error e => .error e
        | .ok value =>
          match decodeEntries c₂ with
          | .error e => .error e
          | .ok entries => .ok ((name, value) :: entries)
termination_by 2 * c.rest.length
decreasing_by
  all_goals
    have := Cursor.takePrefixed_length _hn
    have := FieldItem.read_length _hi
    omega

/-- The value of an item, with the contents of a container read. -/
def decodeItem (item : FieldItem) : Except TableError FieldValue :=
  match item with
  | .value v => .ok v
  | .table body =>
    match decodeEntries (Cursor.start body) with
    | .error e => .error e
    | .ok entries => .ok (.table entries)
  | .array body =>
    match decodeValues (Cursor.start body) with
    | .error e => .error e
    | .ok values => .ok (.array values)
termination_by 2 * item.body.length + 1
decreasing_by
  all_goals simp [FieldItem.body, Cursor.start]

/-- The values from a place to the end of an array body. -/
def decodeValues (c : Cursor) : Except TableError (List FieldValue) :=
  if c.rest.isEmpty then
    .ok []
  else
    match _hi : FieldItem.read c with
    | .error e => .error e
    | .ok (item, c₁) =>
      match decodeItem item with
      | .error e => .error e
      | .ok value =>
        match decodeValues c₁ with
        | .error e => .error e
        | .ok values => .ok (value :: values)
termination_by 2 * c.rest.length
decreasing_by
  all_goals
    have := FieldItem.read_length _hi
    omega

end

/-- The table that a body (without its own length) holds. -/
def decode (body : Bytes) : Except TableError FieldTable :=
  decodeEntries (Cursor.start body)

end FieldTable

end WireProtocol
