import WireProtocol.Proofs.Bytes.Roles
import WireProtocol.Proofs.Table.Grammar
import WireProtocol.Table.Encode

/-!
# Writing what the grammar spells

* `EntriesForm.of_encode`: what is written for a table spells it.
* `FieldTable.entriesRoles`: the roles of the octets of a table body. Its truth values are the only
  octets that may be written otherwise than they were read.
* `EntriesForm.encode`: what is written for a table that a body spells.
-/

namespace WireProtocol

open BigEndian
open FieldValue (Kind)

namespace FieldTable

/-! ## Lengths in front -/

theorem counted_eq_ok {octets payload : Bytes} :
    counted octets = .ok payload ↔
      octets.length < capacity 4 ∧ payload = BigEndian.encode 4 octets.length ++ octets :=
  Except.ite_eq_ok

theorem countedName_eq_ok {name label : Bytes} :
    countedName name = .ok label ↔
      name.length < capacity 1 ∧ label = BigEndian.encode 1 name.length ++ name :=
  Except.ite_eq_ok

end FieldTable

open FieldTable

/-! ## What is written is spelled -/

mutual

theorem ValueForm.of_encode (value : FieldValue) (octets : Bytes)
    (h : encodeValue value = .ok octets) : ValueForm value octets := by
  cases value with
  | longstr bytes =>
    obtain ⟨payload, written, same⟩ := Except.bind_eq_ok.mp h
    obtain ⟨bound, rfl⟩ := counted_eq_ok.mp written
    cases same
    exact .longstr bound
  | binary bytes =>
    obtain ⟨payload, written, same⟩ := Except.bind_eq_ok.mp h
    obtain ⟨bound, rfl⟩ := counted_eq_ok.mp written
    cases same
    exact .binary bound
  | table entries =>
    obtain ⟨body, contents, rest⟩ := Except.bind_eq_ok.mp h
    obtain ⟨payload, written, same⟩ := Except.bind_eq_ok.mp rest
    obtain ⟨bound, rfl⟩ := counted_eq_ok.mp written
    cases same
    exact .table (EntriesForm.of_encode entries body contents) bound
  | array values =>
    obtain ⟨body, contents, rest⟩ := Except.bind_eq_ok.mp h
    obtain ⟨payload, written, same⟩ := Except.bind_eq_ok.mp rest
    obtain ⟨bound, rfl⟩ := counted_eq_ok.mp written
    cases same
    exact .array (ValuesForm.of_encode values body contents) bound
  | bool value =>
    cases h
    cases value
    · exact .bool 0
    · exact .bool 1
  | void => cases h; exact .void
  | int8 value => cases h; exact .int8 value
  | uint8 value => cases h; exact .uint8 value
  | int16 value => cases h; exact .int16 value
  | uint16 value => cases h; exact .uint16 value
  | int32 value => cases h; exact .int32 value
  | uint32 value => cases h; exact .uint32 value
  | float32 bits => cases h; exact .float32 bits
  | int64 value => cases h; exact .int64 value
  | timestamp value => cases h; exact .timestamp value
  | float64 bits => cases h; exact .float64 bits
  | decimal scale value => cases h; exact .decimal scale value

theorem ValuesForm.of_encode (values : List FieldValue) (octets : Bytes)
    (h : encodeValues values = .ok octets) : ValuesForm values octets := by
  cases values with
  | nil => cases h; exact .nil
  | cons value values =>
    obtain ⟨first, head, rest⟩ := Except.bind_eq_ok.mp h
    obtain ⟨others, tail, same⟩ := Except.bind_eq_ok.mp rest
    cases same
    exact .cons (ValueForm.of_encode value first head) (ValuesForm.of_encode values others tail)

/-- What is written for a table spells it. -/
theorem EntriesForm.of_encode (entries : List (Bytes × FieldValue)) (octets : Bytes)
    (h : encodeEntries entries = .ok octets) : EntriesForm entries octets := by
  cases entries with
  | nil => cases h; exact .nil
  | cons entry entries =>
    obtain ⟨name, value⟩ := entry
    obtain ⟨label, named, rest⟩ := Except.bind_eq_ok.mp h
    obtain ⟨first, head, rest⟩ := Except.bind_eq_ok.mp rest
    obtain ⟨others, tail, same⟩ := Except.bind_eq_ok.mp rest
    obtain ⟨bound, rfl⟩ := countedName_eq_ok.mp named
    cases same
    exact .cons bound (ValueForm.of_encode value first head)
      (EntriesForm.of_encode entries others tail)

end

/-! ## The roles of the octets of a table -/

namespace FieldTable

mutual

/-- The roles of the octets of a value: a truth value is all that is not taken literally. -/
def valueRoles : FieldValue → List OctetRole
  | .void => [.whole]
  | .bool _ => [.whole, .truth]
  | .int8 _ | .uint8 _ => List.replicate 2 .whole
  | .int16 _ | .uint16 _ => List.replicate 3 .whole
  | .int32 _ | .uint32 _ | .float32 _ => List.replicate 5 .whole
  | .int64 _ | .timestamp _ | .float64 _ => List.replicate 9 .whole
  | .decimal _ _ => List.replicate 6 .whole
  | .longstr bytes | .binary bytes => List.replicate (5 + bytes.length) .whole
  | .table entries => List.replicate 5 .whole ++ entriesRoles entries
  | .array values => List.replicate 5 .whole ++ valuesRoles values

/-- The roles of the octets of values, one after the other. -/
def valuesRoles : List FieldValue → List OctetRole
  | [] => []
  | value :: values => valueRoles value ++ valuesRoles values

/-- The roles of the octets of entries, one after the other. -/
def entriesRoles : List (Bytes × FieldValue) → List OctetRole
  | [] => []
  | (name, value) :: entries =>
    List.replicate (1 + name.length) .whole ++ valueRoles value ++ entriesRoles entries

end

mutual

theorem flags_not_mem_valueRoles (count : Nat) (value : FieldValue) :
    .flags count ∉ valueRoles value := by
  cases value with
  | table entries => simp [valueRoles, flags_not_mem_entriesRoles count entries]
  | array values => simp [valueRoles, flags_not_mem_valuesRoles count values]
  | _ => simp [valueRoles]

theorem flags_not_mem_valuesRoles (count : Nat) (values : List FieldValue) :
    .flags count ∉ valuesRoles values := by
  cases values with
  | nil => exact List.not_mem_nil
  | cons value values =>
    rw [valuesRoles, List.mem_append, not_or]
    exact ⟨flags_not_mem_valueRoles count value, flags_not_mem_valuesRoles count values⟩

/-- No octet of a table is shared by several values. -/
theorem flags_not_mem_entriesRoles (count : Nat) (entries : FieldTable) :
    .flags count ∉ entriesRoles entries := by
  match entries with
  | [] => exact List.not_mem_nil
  | (name, value) :: entries =>
    simp [entriesRoles, flags_not_mem_valueRoles count value,
      flags_not_mem_entriesRoles count entries]

end

end FieldTable

/-! ## What is spelled is written in its normal form -/

mutual

theorem ValueForm.length_roles {value : FieldValue} {octets : Bytes} (h : ValueForm value octets) :
    (valueRoles value).length = octets.length := by
  cases h with
  | longstr bound | binary bound => simp [valueRoles]; omega
  | table contents bound =>
    simp [valueRoles, EntriesForm.length_roles contents]
    omega
  | array contents bound =>
    simp [valueRoles, ValuesForm.length_roles contents]
    omega
  | _ => simp [valueRoles]

theorem ValuesForm.length_roles {values : List FieldValue} {octets : Bytes}
    (h : ValuesForm values octets) : (valuesRoles values).length = octets.length := by
  cases h with
  | nil => rfl
  | cons head tail =>
    rw [valuesRoles, List.length_append, List.length_append, ValueForm.length_roles head,
      ValuesForm.length_roles tail]

/-- Each octet of a table body has a role. -/
theorem EntriesForm.length_roles {entries : FieldTable} {octets : Bytes}
    (h : EntriesForm entries octets) : (entriesRoles entries).length = octets.length := by
  cases h with
  | nil => rfl
  | cons bound head tail =>
    simp only [entriesRoles, List.length_append, List.length_replicate, length_encode,
      ValueForm.length_roles head, EntriesForm.length_roles tail]

end

/-- The normal form of a container: its tag and its length stay, and its contents are normalised. -/
private theorem normalize_container {kind : Kind} {roles : List OctetRole} {body : Bytes}
    (same : roles.length = body.length) :
    normalize (List.replicate 5 .whole ++ roles)
        (kind.tag :: (BigEndian.encode 4 body.length ++ body)) =
      kind.tag :: (BigEndian.encode 4 (normalize roles body).length ++ normalize roles body) := by
  have front : (kind.tag :: BigEndian.encode 4 body.length).length = 5 := by
    rw [List.length_cons, length_encode]
  rw [← List.cons_append, normalize_append (by rw [front, List.length_replicate]),
    normalize_replicate front.symm, length_normalize same]
  rfl

/-- A body that fits its length field does so in its normal form. -/
private theorem counted_normalize {roles : List OctetRole} {body : Bytes}
    (same : roles.length = body.length) (bound : body.length < capacity 4) :
    counted (normalize roles body) =
      .ok (BigEndian.encode 4 (normalize roles body).length ++ normalize roles body) :=
  counted_eq_ok.mpr ⟨by rw [length_normalize same]; exact bound, rfl⟩

mutual

theorem ValueForm.encode {value : FieldValue} {octets : Bytes} (h : ValueForm value octets) :
    encodeValue value = .ok (normalize (valueRoles value) octets) := by
  cases h with
  | bool octet =>
    by_cases zero : octet = 0
    · subst zero
      rfl
    · simp only [encodeValue, valueRoles, normalize, List.zipWith_cons_cons, List.zipWith_nil_left,
        OctetRole.normal, if_neg zero, FieldValue.scalarPayload, bne_iff_ne.mpr zero]
      rfl
  | longstr bound | binary bound =>
    rw [valueRoles, normalize_replicate (by simp; omega)]
    simp only [encodeValue, counted_eq_ok.mpr ⟨bound, rfl⟩]
    rfl
  | table contents bound =>
    have same := EntriesForm.length_roles contents
    rw [valueRoles, normalize_container same, encodeValue, EntriesForm.encode contents]
    exact Except.bind_eq_ok.mpr ⟨_, rfl, Except.bind_eq_ok.mpr
      ⟨_, counted_normalize same bound, rfl⟩⟩
  | array contents bound =>
    have same := ValuesForm.length_roles contents
    rw [valueRoles, normalize_container same, encodeValue, ValuesForm.encode contents]
    exact Except.bind_eq_ok.mpr ⟨_, rfl, Except.bind_eq_ok.mpr
      ⟨_, counted_normalize same bound, rfl⟩⟩
  | void => rfl
  | int8 | uint8 | int16 | uint16 | int32 | uint32 | float32 | int64 | timestamp | float64
  | decimal =>
    rw [valueRoles, normalize_replicate (by simp)]
    rfl

theorem ValuesForm.encode {values : List FieldValue} {octets : Bytes}
    (h : ValuesForm values octets) :
    encodeValues values = .ok (normalize (valuesRoles values) octets) := by
  cases h with
  | nil => rfl
  | cons head tail =>
    rw [valuesRoles, normalize_append (ValueForm.length_roles head), encodeValues,
      ValueForm.encode head, ValuesForm.encode tail]
    rfl

/-- What is written for a table that a body spells is the body in its normal form. -/
theorem EntriesForm.encode {entries : FieldTable} {octets : Bytes}
    (h : EntriesForm entries octets) :
    encodeEntries entries = .ok (normalize (entriesRoles entries) octets) := by
  cases h with
  | nil => rfl
  | @cons name value entries first others bound head tail =>
    have label : 1 + name.length = (BigEndian.encode 1 name.length ++ name).length := by
      rw [List.length_append, length_encode]
    have front : (List.replicate (1 + name.length) OctetRole.whole ++ valueRoles value).length =
        (BigEndian.encode 1 name.length ++ name ++ first).length := by
      rw [List.length_append, List.length_append, List.length_replicate, label,
        ValueForm.length_roles head]
    rw [entriesRoles, normalize_append front,
      normalize_append (by rw [List.length_replicate, label]), normalize_replicate label,
      encodeEntries, countedName_eq_ok.mpr ⟨bound, rfl⟩, ValueForm.encode head,
      EntriesForm.encode tail]
    rfl

end

end WireProtocol
