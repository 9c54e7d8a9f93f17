import WireProtocol.Proofs.Table.Grammar

/-!
# Table bodies one after the other

* `FieldTable.decodeValue`: the value at a place of a body.
* `FieldTable.decodeEntries_of_ne_nil`, `FieldTable.decodeValues_of_ne_nil`: the steps that are taken for
  an entry or for a value.
* `EntriesForm.append`, `ValuesForm.append`: bodies in a row spell the entries of both.
* `EntriesForm.decode_append`, `ValuesForm.decode_append`: what has been read makes no difference to
  what is read behind it.
-/

namespace WireProtocol

open BigEndian

namespace FieldTable

/-- The value at a place, with the contents of a container read. -/
def decodeValue (c : Cursor) : Except TableError (FieldValue × Cursor) := do
  let (item, c') ← FieldItem.read c
  let value ← decodeItem item
  return (value, c')

/-! ## Steps of a decoder, one after the other -/

/-- An entry is read as its name and then its value, and the other entries behind it. -/
theorem decodeEntries_of_ne_nil {c : Cursor} (more : c.rest ≠ []) :
    decodeEntries c = c.takePrefixed 1 >>= fun (name, c₁) =>
      decodeValue c₁ >>= fun (value, c₂) =>
        decodeEntries c₂ >>= fun entries => .ok ((name, value) :: entries) := by
  have some : ¬ c.rest.isEmpty = true := fun done => more (List.isEmpty_iff.mp done)
  rw [decodeEntries, if_neg some]
  split
  · rename_i e named
    rw [named]
    rfl
  · rename_i name c₁ named
    rw [named]
    change _ = decodeValue c₁ >>= _
    unfold decodeValue
    split
    · rename_i e read
      rw [read]
      rfl
    · rename_i item c₂ read
      rw [read]
      change _ = (decodeItem item >>= _) >>= _
      cases decodeItem item with
      | error e => rfl
      | ok value =>
        change _ = decodeEntries c₂ >>= _
        cases decodeEntries c₂ <;> rfl

/-- A value of an array is read in front of the other values. -/
theorem decodeValues_of_ne_nil {c : Cursor} (more : c.rest ≠ []) :
    decodeValues c = decodeValue c >>= fun (value, c₁) =>
      decodeValues c₁ >>= fun values => .ok (value :: values) := by
  have some : ¬ c.rest.isEmpty = true := fun done => more (List.isEmpty_iff.mp done)
  rw [decodeValues, if_neg some]
  unfold decodeValue
  split
  · rename_i e read
    rw [read]
    rfl
  · rename_i item c₁ read
    rw [read]
    change _ = (decodeItem item >>= _) >>= _
    cases decodeItem item with
    | error e => rfl
    | ok value =>
      change _ = decodeValues c₁ >>= _
      cases decodeValues c₁ <;> rfl

/-- A value is read exactly where octets that spell it come first. -/
theorem decodeValue_eq_ok {c c' : Cursor} {value : FieldValue} :
    decodeValue c = .ok (value, c') ↔
      ∃ octets, ValueForm value octets ∧ c.rest = octets ++ c'.rest ∧
        c'.pos = c.pos + octets.length := by
  rw [decodeValue, Except.bind_eq_ok]
  constructor
  · rintro ⟨⟨item, c₁⟩, read, h⟩
    obtain ⟨value', decoded, same⟩ := Except.bind_eq_ok.mp h
    cases same
    obtain ⟨kind, payload, rfl, admits, parts, pos⟩ := FieldItem.read_eq_ok.mp read
    exact ⟨_, ValueForm.of_decode kind payload value admits decoded, parts, pos⟩
  · rintro ⟨octets, spelled, parts, pos⟩
    obtain ⟨kind, payload, rfl, admits, decoded⟩ := spelled.decode
    exact ⟨_, FieldItem.read_eq_ok.mpr ⟨kind, payload, rfl, admits, parts, pos⟩,
      Except.bind_eq_ok.mpr ⟨value, decoded, rfl⟩⟩

/-- Where in a longer body entries begin makes no difference to what they are. -/
theorem decodeEntries_eq_ok_iff_form {c : Cursor} {entries : FieldTable} :
    decodeEntries c = .ok entries ↔ EntriesForm entries c.rest :=
  ⟨EntriesForm.of_decode c entries, fun spelled => spelled.decode c.pos⟩

end FieldTable

open FieldTable

theorem ValueForm.decodeValue {value : FieldValue} {octets : Bytes} (h : ValueForm value octets)
    (pos : Nat) (rest : Bytes) :
    FieldTable.decodeValue ⟨pos, octets ++ rest⟩ = .ok (value, ⟨pos + octets.length, rest⟩) :=
  decodeValue_eq_ok.mpr ⟨octets, h, rfl, rfl⟩

theorem ValueForm.ne_nil {value : FieldValue} {octets : Bytes} (h : ValueForm value octets) :
    octets ≠ [] := by
  obtain ⟨kind, payload, rfl, -, -⟩ := h.decode
  exact List.cons_ne_nil _ _

/-! ## Bodies in a row -/

namespace ValuesForm

variable {values values' : List FieldValue} {octets octets' : Bytes}

theorem append (h : ValuesForm values octets) (h' : ValuesForm values' octets') :
    ValuesForm (values ++ values') (octets ++ octets') := by
  induction values generalizing octets with
  | nil =>
    cases h
    exact h'
  | cons value values ih =>
    cases h with
    | cons head tail =>
      rw [List.append_assoc]
      exact .cons head (ih tail)

/-- Values that have been read make no difference to what is read behind them. -/
theorem decode_append (h : ValuesForm values octets) (pos : Nat) (rest : Bytes) :
    decodeValues ⟨pos, octets ++ rest⟩ =
      (decodeValues ⟨pos + octets.length, rest⟩).map (values ++ ·) := by
  induction values generalizing octets pos with
  | nil =>
    cases h
    change decodeValues ⟨pos, rest⟩ = (decodeValues ⟨pos, rest⟩).map id
    rw [Except.map_id]
    rfl
  | cons value values ih =>
    cases h with
    | @cons _ _ first others head tail =>
      have more : (first ++ others) ++ rest ≠ [] := by simp [head.ne_nil]
      rw [decodeValues_of_ne_nil more, List.append_assoc, head.decodeValue]
      change decodeValues ⟨pos + first.length, others ++ rest⟩ >>= _ = _
      rw [ih tail, List.length_append, Nat.add_assoc]
      cases decodeValues ⟨pos + (first.length + others.length), rest⟩ <;> rfl

end ValuesForm

namespace EntriesForm

variable {entries entries' : FieldTable} {octets octets' : Bytes}

/-- Bodies in a row spell the entries of both. -/
theorem append (h : EntriesForm entries octets) (h' : EntriesForm entries' octets') :
    EntriesForm (entries ++ entries') (octets ++ octets') := by
  induction entries generalizing octets with
  | nil =>
    cases h
    exact h'
  | cons entry entries ih =>
    cases h with
    | cons bound head tail =>
      rw [List.append_assoc]
      exact .cons bound head (ih tail)

/-- Entries that have been read make no difference to what is read behind them. -/
theorem decode_append (h : EntriesForm entries octets) (pos : Nat) (rest : Bytes) :
    decodeEntries ⟨pos, octets ++ rest⟩ =
      (decodeEntries ⟨pos + octets.length, rest⟩).map (entries ++ ·) := by
  induction entries generalizing octets pos with
  | nil =>
    cases h
    change decodeEntries ⟨pos, rest⟩ = (decodeEntries ⟨pos, rest⟩).map id
    rw [Except.map_id]
    rfl
  | cons entry entries ih =>
    cases h with
    | @cons name value _ first others bound head tail =>
      have more : encode 1 name.length ++ name ++ first ++ others ++ rest ≠ [] :=
        List.cons_ne_nil _ _
      have named : Cursor.takePrefixed 1
          ⟨pos, encode 1 name.length ++ name ++ first ++ others ++ rest⟩ =
            .ok (name, ⟨pos + (1 + name.length), first ++ (others ++ rest)⟩) :=
        Cursor.takePrefixed_eq_ok.mpr ⟨bound, by simp only [List.append_assoc], rfl⟩
      rw [decodeEntries_of_ne_nil more, named]
      change FieldTable.decodeValue ⟨pos + (1 + name.length), first ++ (others ++ rest)⟩ >>= _ = _
      rw [head.decodeValue]
      change decodeEntries ⟨pos + (1 + name.length) + first.length, others ++ rest⟩ >>= _ = _
      have end_eq : pos + (1 + name.length) + first.length + others.length =
          pos + (encode 1 name.length ++ name ++ first ++ others).length := by
        simp only [List.length_append, length_encode]
        omega
      rw [ih tail, end_eq]
      cases decodeEntries ⟨pos + (encode 1 name.length ++ name ++ first ++ others).length, rest⟩ <;>
        rfl

end EntriesForm

end WireProtocol
