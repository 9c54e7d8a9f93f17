import WireProtocol.Proofs.Outcome
import WireProtocol.Proofs.Table.Size

/-!
# Names in field tables

* `FieldTable.names`: the names of a table and of the tables inside it, in the order in which they are
  written: each in front of its value, and a value in front of the entries behind it.
* `FieldTable.nameOverflow?`: the error for a name that is too long for the length in front of it.
* `FieldTable.encode_ends`: a table of which no body is too long is refused for the first such name
  alone.
-/

namespace WireProtocol

namespace FieldTable

mutual

/-- The names inside a value. -/
def valueNames : FieldValue → List Bytes
  | .table entries => names entries
  | .array values => valuesNames values
  | _ => []

/-- The names inside values, one value after the other. -/
def valuesNames : List FieldValue → List Bytes
  | [] => []
  | value :: values => valueNames value ++ valuesNames values

/-- The names of entries, each in front of those inside its value. -/
def names : List (Bytes × FieldValue) → List Bytes
  | [] => []
  | (name, value) :: entries => name :: (valueNames value ++ names entries)

end

/-- The error for a name that is too long. -/
def nameOverflow? (name : Bytes) : Option TableError :=
  if name.length ≤ 255 then none else some (.nameTooLong name.length)

theorem countedName_ends (name : Bytes) : (countedName name).Ends (nameOverflow? name) := by
  unfold countedName nameOverflow?
  by_cases short : name.length ≤ 255
  · rw [if_pos (Nat.lt_succ_of_le short), if_pos short]
    exact .value rfl
  · rw [if_neg (fun fits => short (Nat.le_of_lt_succ fits)), if_neg short]
    exact .error rfl

theorem counted_ends {octets : Bytes} (room : octets.length < UInt32.size) :
    (counted octets).Ends none :=
  .value (counted_eq_ok.mpr ⟨room, rfl⟩)

/-- A container is refused for what is wrong inside it when its body is short enough. -/
private theorem container_ends {body : Except TableError Bytes} {tag : UInt8}
    {failure : Option TableError} (contents : body.Ends failure)
    (room : ∀ octets, body = .ok octets → octets.length < UInt32.size) :
    (do return tag :: (← counted (← body)) : Except TableError Bytes).Ends failure := by
  have ends := contents.bind fun octets written =>
    (counted_ends (room octets written)).map (fun payload => tag :: payload)
  rwa [Option.or_none] at ends

mutual

theorem encodeValue_ends (value : FieldValue) (room : valueSize value < UInt32.size) :
    (encodeValue value).Ends ((valueNames value).findSome? nameOverflow?) := by
  cases value with
  | longstr bytes | binary bytes =>
    have fits : bytes.length < UInt32.size := by
      rw [valueSize] at room
      omega
    exact .value (Except.bind_eq_ok.mpr ⟨_, counted_eq_ok.mpr ⟨fits, rfl⟩, rfl⟩)
  | table entries =>
    have inside : size entries < UInt32.size := by
      rw [valueSize] at room
      omega
    rw [encodeValue, valueNames]
    refine container_ends (encodeEntries_ends entries inside) fun octets written => ?_
    rwa [(EntriesForm.of_encode entries octets written).length_eq_size]
  | array values =>
    have inside : valuesSize values < UInt32.size := by
      rw [valueSize] at room
      omega
    rw [encodeValue, valueNames]
    refine container_ends (encodeValues_ends values inside) fun octets written => ?_
    rwa [← ValuesForm.length_roles (ValuesForm.of_encode values octets written),
      length_valuesRoles]
  | _ => exact .value rfl

theorem encodeValues_ends (values : List FieldValue) (room : valuesSize values < UInt32.size) :
    (encodeValues values).Ends ((valuesNames values).findSome? nameOverflow?) := by
  match values with
  | [] => exact .value rfl
  | value :: values =>
    rw [valuesSize] at room
    have first := encodeValue_ends value (by omega)
    have others := encodeValues_ends values (by omega)
    rw [encodeValues, valuesNames, List.findSome?_append]
    exact first.bind fun octets _ => others.map fun more => octets ++ more

theorem encodeEntries_ends (entries : List (Bytes × FieldValue)) (room : size entries < UInt32.size) :
    (encodeEntries entries).Ends ((names entries).findSome? nameOverflow?) := by
  match entries with
  | [] => exact .value rfl
  | (name, value) :: entries =>
    rw [size] at room
    have label := countedName_ends name
    have first := encodeValue_ends value (by omega)
    have others := encodeEntries_ends entries (by omega)
    rw [encodeEntries, names, List.findSome?_cons_eq_or, List.findSome?_append]
    exact label.bind fun counted _ => first.bind fun octets _ =>
      others.map fun more => counted ++ octets ++ more

end

/-- A table of which no body is too long is refused for the first name that is, and for nothing
else. -/
theorem encode_ends {table : FieldTable} (room : size table < UInt32.size) :
    table.encode.Ends ((names table).findSome? nameOverflow?) :=
  encodeEntries_ends table room

end FieldTable

end WireProtocol
