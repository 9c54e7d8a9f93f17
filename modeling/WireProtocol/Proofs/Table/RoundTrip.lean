import WireProtocol.Proofs.Table.Canonical

/-!
# Field tables written and read

* `FieldTable.written_reads_back`: a table that has been written reads back as itself.
* `FieldTable.decode_eq_ok_iff_spelled`: a body is read exactly when it spells a table, and it
  spells no other one.
* `FieldTable.read_is_written_normally`: a table that has been read is written in its normal form.
  That is the body it was read from, unless the body has a truth value other than zero and one.
-/

namespace WireProtocol

open FieldTable

/-- A body that spells a table spells no other one. -/
theorem EntriesForm.unique {table other : FieldTable} {body : Bytes} (h : EntriesForm table body)
    (h' : EntriesForm other body) : other = table := by
  have read := decode_eq_ok.mpr h
  have read' := decode_eq_ok.mpr h'
  exact Except.ok.inj (read'.symm.trans read)

namespace FieldTable

/-- The tables that can be written are those that some body spells. -/
theorem exists_encode_eq_ok {table : FieldTable} :
    (∃ octets, table.encode = .ok octets) ↔ ∃ body, EntriesForm table body := by
  constructor
  · rintro ⟨octets, encoded⟩
    exact ⟨octets, EntriesForm.of_encode table octets encoded⟩
  · rintro ⟨body, spelled⟩
    exact ⟨_, spelled.encode⟩

/-- Only truth values are written otherwise than they have been read. -/
theorem normalize_eq_self_iff_truth {table : FieldTable} {body : Bytes}
    (same : (entriesRoles table).length = body.length) :
    normalize (entriesRoles table) body = body ↔
      ∀ octet, (.truth, octet) ∈ (entriesRoles table).zip body → octet = 0 ∨ octet = 1 := by
  rw [normalize_eq_self_iff same]
  constructor
  · intro normal octet member
    exact normal .truth octet member
  · intro normal role octet member
    cases role with
    | whole => exact trivial
    | flags count => exact (flags_not_mem_entriesRoles count table (List.of_mem_zip member).1).elim
    | truth => exact normal octet member

end FieldTable

namespace QueueArguments

/-- A table whose names repeat and may be empty, with an array that holds another table and a
number that is not one. -/
def table : FieldTable :=
  [([0x6B], .array [.bool true, .table [([], .float64 0x7FF8000000000001)]]), ([0x6B], .void),
    ([], .decimal 2 314), ([0x6E], .int64 (-1))]

/-- A body that spells the table, whatever octet above zero stands for the truth value. -/
def body (truth : UInt8) : Bytes :=
  [1, 0x6B, 0x41, 0, 0, 0, 17, 0x74, truth,
      0x46, 0, 0, 0, 10, 0, 0x64, 0x7F, 0xF8, 0, 0, 0, 0, 0, 1,
    1, 0x6B, 0x56, 0, 0x44, 2, 0, 0, 1, 0x3A,
    1, 0x6E, 0x6C, 0xFF, 0xFF, 0xFF, 0xFF, 0xFF, 0xFF, 0xFF, 0xFF]

end QueueArguments

/-! ## Round trips -/

/-- A table that has been written reads back as itself, with the same entries in the same order. The
tables that can be written are those that can be read. -/
theorem FieldTable.written_reads_back {table : FieldTable} :
    (∀ octets, table.encode = .ok octets → FieldTable.decode octets = .ok table) ∧
      ((∃ octets, table.encode = .ok octets) ↔ ∃ body, FieldTable.decode body = .ok table) := by
  constructor
  · intro octets encoded
    exact decode_eq_ok.mpr (EntriesForm.of_encode table octets encoded)
  · simp only [decode_eq_ok]
    exact exists_encode_eq_ok

/-- Names may repeat, and a number that is not one keeps its bits. -/
theorem QueueArguments.table_reads_back :
    table.encode = .ok (body 1) ∧ FieldTable.decode (body 1) = .ok table := by
  have encoded : table.encode = .ok (body 1) := rfl
  exact ⟨encoded, FieldTable.written_reads_back.1 (body 1) encoded⟩

/-- A body is read as a table exactly when it spells that table, and it spells no other one. -/
theorem FieldTable.decode_eq_ok_iff_spelled {table : FieldTable} {body : Bytes} :
    (FieldTable.decode body = .ok table ↔ EntriesForm table body) ∧
      ∀ other, EntriesForm table body → EntriesForm other body → other = table := by
  refine ⟨decode_eq_ok, ?_⟩
  intro other spelled spelled'
  exact spelled.unique spelled'

/-- A truth value may be spelled by any octet above zero. -/
theorem QueueArguments.body_spells_table :
    EntriesForm table (body 9) ∧ ∀ other, EntriesForm other (body 9) → other = table := by
  have decoded : FieldTable.decode (body 9) = .ok table := by
    with_unfolding_all rfl
  have spelled := FieldTable.decode_eq_ok_iff_spelled.1.mp decoded
  exact ⟨spelled, fun other => FieldTable.decode_eq_ok_iff_spelled.2 other spelled⟩

/-- A table that has been read is written in its normal form, which has the same length and reads as
the same table. It is written as the body it was read from exactly when all of its truth values are
zero or one there. -/
theorem FieldTable.read_is_written_normally {table : FieldTable} {body : Bytes}
    (decoded : FieldTable.decode body = .ok table) :
    ∃ octets, table.encode = .ok octets ∧
      (entriesRoles table).length = body.length ∧ octets.length = body.length ∧
      FieldTable.decode octets = .ok table ∧
      octets = normalize (entriesRoles table) body ∧
      (octets = body ↔
        ∀ octet, (.truth, octet) ∈ (entriesRoles table).zip body → octet = 0 ∨ octet = 1) := by
  have spelled := decode_eq_ok.mp decoded
  have roles := spelled.length_roles
  have written := spelled.encode
  have again := EntriesForm.of_encode table _ written
  exact ⟨_, written, roles, length_normalize roles, decode_eq_ok.mpr again, rfl,
    normalize_eq_self_iff_truth roles⟩

namespace QueueArguments

/-- The truth value inside the array becomes one, and nothing else changes. -/
theorem body_is_normalized :
    FieldTable.decode (body 9) = .ok table ∧ table.encode = .ok (body 1) := by
  have decoded : FieldTable.decode (body 9) = .ok table := by
    with_unfolding_all rfl
  obtain ⟨octets, written, -, -, -, normal, -⟩ := FieldTable.read_is_written_normally decoded
  have same : octets = body 1 := by
    rw [normal]
    rfl
  exact ⟨decoded, same ▸ written⟩

/-- A truth value other than one does not come back. -/
theorem written_otherwise_than_read :
    ¬ ∀ (body : Bytes) (table : FieldTable),
      FieldTable.decode body = .ok table → table.encode = .ok body := by
  intro unchanged
  have decoded : FieldTable.decode [1, 0x6B, 0x74, 2] = .ok [([0x6B], .bool true)] := by
    with_unfolding_all rfl
  have written : FieldTable.encode [([0x6B], .bool true)] = .ok [1, 0x6B, 0x74, 1] := rfl
  have same := written.symm.trans (unchanged _ _ decoded)
  simp at same

end QueueArguments

end WireProtocol
