import WireProtocol.Proofs.Table.Canonical

/-!
# Sizes of field tables

* `FieldTable.valueSize`, `FieldTable.valuesSize`, `FieldTable.size`: how many octets a value, the
  contents of an array and the contents of a table take.
* `EntriesForm.length_eq_size`: each body that spells a table is as long as that.
-/

namespace WireProtocol

namespace FieldTable

mutual

/-- The octets of a value: its tag, the length in front of a string or a container, and the
payload. -/
def valueSize : FieldValue → Nat
  | .void => 1
  | .bool _ | .int8 _ | .uint8 _ => 1 + 1
  | .int16 _ | .uint16 _ => 1 + 2
  | .int32 _ | .uint32 _ | .float32 _ => 1 + 4
  | .int64 _ | .timestamp _ | .float64 _ => 1 + 8
  | .decimal _ _ => 1 + (1 + 4)
  | .longstr bytes | .binary bytes => 1 + (4 + bytes.length)
  | .table entries => 1 + (4 + size entries)
  | .array values => 1 + (4 + valuesSize values)

/-- The octets of values, one after the other. -/
def valuesSize : List FieldValue → Nat
  | [] => 0
  | value :: values => valueSize value + valuesSize values

/-- The octets of entries: each name behind its length, and then its value. -/
def size : List (Bytes × FieldValue) → Nat
  | [] => 0
  | (name, value) :: entries => 1 + name.length + valueSize value + size entries

end

mutual

theorem length_valueRoles (value : FieldValue) : (valueRoles value).length = valueSize value := by
  cases value with
  | table entries =>
    rw [valueRoles, valueSize, List.length_append, List.length_replicate,
      length_entriesRoles entries]
    omega
  | array values =>
    rw [valueRoles, valueSize, List.length_append, List.length_replicate, length_valuesRoles values]
    omega
  | longstr bytes | binary bytes =>
    rw [valueRoles, valueSize, List.length_replicate]
    omega
  | _ => rfl

theorem length_valuesRoles (values : List FieldValue) :
    (valuesRoles values).length = valuesSize values := by
  cases values with
  | nil => rfl
  | cons value values =>
    rw [valuesRoles, valuesSize, List.length_append, length_valueRoles value,
      length_valuesRoles values]

/-- There are as many roles as octets. -/
theorem length_entriesRoles (entries : FieldTable) :
    (entriesRoles entries).length = size entries := by
  match entries with
  | [] => rfl
  | (name, value) :: entries =>
    rw [entriesRoles, size, List.length_append, List.length_append, List.length_replicate,
      length_valueRoles value, length_entriesRoles entries]

end

end FieldTable

/-- All bodies of a table are of the same length. -/
theorem EntriesForm.length_eq_size {table : FieldTable} {body : Bytes}
    (h : EntriesForm table body) : body.length = FieldTable.size table := by
  rw [← h.length_roles, FieldTable.length_entriesRoles]

end WireProtocol
