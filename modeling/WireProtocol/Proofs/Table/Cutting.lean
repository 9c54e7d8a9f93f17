import WireProtocol.Proofs.Table.Defects
import WireProtocol.Proofs.Table.RoundTrip
import WireProtocol.Proofs.Table.Size

/-!
# Cutting and joining table bodies

* `Container.Defective.of_cut`: more octets behind a body mend it only where an item of its own runs
  past the end.
* `EntriesForm.exists_append`: the body of a table falls apart between any two of its entries.
* `FieldTable.cut_and_joined`: what becomes of a body that is joined to another one or cut short.
-/

namespace WireProtocol

open FieldTable

/-! ## Longer bodies -/

namespace Container

variable {k : Container} {body : Bytes} {e : TableError}

/-- An octet that announces no value does so in a longer body too. -/
theorem Defect.of_cut (defect : k.Defect body e) (more : Bytes) :
    (∃ offset, offset ≤ body.length ∧ e = .truncated offset) ∨ k.Defect (body ++ more) e := by
  cases defect with
  | truncated short => exact .inl ⟨_, short.1, rfl⟩
  | @unknownTag tag offset passed there unknown =>
    obtain ⟨within, -⟩ := List.getElem?_eq_some_iff.mp there
    refine .inr (.unknownTag ?_ ?_ unknown)
    · rwa [List.take_append_of_le_length (Nat.le_of_lt within)]
    · rwa [List.getElem?_append_left within]

/-- The containers inside a body stand in a longer one as well, so that the end of the body can be at
fault for its own items alone. -/
theorem Defective.of_cut (defective : Defective k body e) (more : Bytes) :
    (∃ offset, offset ≤ body.length ∧ e = .truncated offset) ∨ Defective k (body ++ more) e := by
  obtain ⟨k', inner, within, defect⟩ := defective
  cases within with
  | here => exact (defect.of_cut more).imp_right fun still => ⟨_, _, .here, still⟩
  | @inside _ next front contents rest passed bound within =>
    refine .inr ⟨k', inner, ?_, defect⟩
    rw [List.append_assoc _ rest]
    exact .inside passed bound within

end Container

/-! ## Parts of a body -/

/-- The body of entries in a row is made of the bodies of both parts. -/
theorem EntriesForm.exists_append {entries entries' : FieldTable} {octets : Bytes}
    (h : EntriesForm (entries ++ entries') octets) :
    ∃ front back, EntriesForm entries front ∧ EntriesForm entries' back ∧ octets = front ++ back := by
  induction entries generalizing octets with
  | nil => exact ⟨[], octets, .nil, h, rfl⟩
  | cons entry entries ih =>
    cases h with
    | cons bound head tail =>
      obtain ⟨front, back, spelled, spelled', rfl⟩ := ih tail
      exact ⟨_, back, .cons bound head spelled, spelled', (List.append_assoc ..).symm⟩

namespace FieldTable

variable {a : Bytes} {t : FieldTable} {n : Nat}

theorem decode_append (decoded : FieldTable.decode a = .ok t) (c : Bytes) (u : FieldTable) :
    FieldTable.decode (a ++ c) = .ok u ↔ ∃ v, FieldTable.decode c = .ok v ∧ u = t ++ v := by
  have joined : FieldTable.decode (a ++ c) = .ok u ↔
      ∃ v, decodeEntries ⟨0 + a.length, c⟩ = .ok v ∧ t ++ v = u := by
    rw [FieldTable.decode, Cursor.start, (decode_eq_ok.mp decoded).decode_append, Except.map_eq_ok]
  rw [joined]
  refine exists_congr fun v => and_congr ?_ eq_comm
  rw [decodeEntries_eq_ok_iff_form, decode_eq_ok]

/-- Behind so many entries the body of a table can be cut. -/
theorem decode_take (decoded : FieldTable.decode a = .ok t) (k : Nat) :
    FieldTable.decode (a.take (size (t.take k))) = .ok (t.take k) := by
  have spelled := decode_eq_ok.mp decoded
  rw [← List.take_append_drop k t] at spelled
  obtain ⟨front, back, first, -, rfl⟩ := spelled.exists_append
  rw [← first.length_eq_size, List.take_left]
  exact decode_eq_ok.mpr first

/-- What is read from the front of a body is some of its entries, to the last octet. -/
theorem exists_size_of_decode_take (decoded : FieldTable.decode a = .ok t) (within : n ≤ a.length)
    {u : FieldTable} (cut : FieldTable.decode (a.take n) = .ok u) : ∃ k, n = size (t.take k) := by
  have whole : FieldTable.decode (a.take n ++ a.drop n) = .ok t := by
    rwa [List.take_append_drop]
  obtain ⟨v, -, rfl⟩ := (decode_append cut _ _).mp whole
  refine ⟨u.length, ?_⟩
  rw [List.take_left, ← (decode_eq_ok.mp cut).length_eq_size, List.length_take_of_le within]

/-- A body that is cut elsewhere than between two entries is reported to be cut. -/
theorem decode_take_of_between (decoded : FieldTable.decode a = .ok t) (within : n ≤ a.length)
    (between : ∀ k, n ≠ size (t.take k)) :
    ∃ offset, offset ≤ n ∧ FieldTable.decode (a.take n) = .error (.truncated offset) := by
  cases cut : FieldTable.decode (a.take n) with
  | ok u =>
    obtain ⟨k, same⟩ := exists_size_of_decode_take decoded within cut
    exact absurd same (between k)
  | error e =>
    rcases (decode_eq_error.mp cut).of_cut (a.drop n) with ⟨offset, bound, rfl⟩ | still
    · rw [List.length_take_of_le within] at bound
      exact ⟨offset, bound, rfl⟩
    · -- Any other defect would be one of the whole body.
      rw [List.take_append_drop] at still
      cases decoded.symm.trans (decode_eq_error.mpr still)

/-- A body that holds a table can be continued by exactly the bodies that hold one themselves, whose
entries follow its own. Cut short between two entries it holds the entries in front; cut short
anywhere else it is reported to be cut, at an offset that is still there. -/
theorem cut_and_joined (decoded : FieldTable.decode a = .ok t) :
    (∀ c u, FieldTable.decode (a ++ c) = .ok u ↔
      ∃ v, FieldTable.decode c = .ok v ∧ u = t ++ v) ∧
    ∀ n, n < a.length →
      (∀ k, n = size (t.take k) → FieldTable.decode (a.take n) = .ok (t.take k)) ∧
      ((∀ k, n ≠ size (t.take k)) →
        ∃ offset, offset ≤ n ∧ FieldTable.decode (a.take n) = .error (.truncated offset)) := by
  refine ⟨decode_append decoded, fun n within => ⟨?_, ?_⟩⟩
  · rintro k rfl
    exact decode_take decoded k
  · exact decode_take_of_between decoded (Nat.le_of_lt within)

end FieldTable

namespace QueueArguments

/-- Two bodies in a row, a body of which one entry is left, and one that ends inside an array. -/
theorem body_is_cut_and_joined :
    FieldTable.decode (body 1 ++ body 9) = .ok (table ++ table) ∧
      FieldTable.decode ((body 1).take 24) = .ok (table.take 1) ∧
      ∃ offset, offset ≤ 20 ∧ FieldTable.decode ((body 1).take 20) = .error (.truncated offset) := by
  have decoded : FieldTable.decode (body 1) = .ok table := by
    with_unfolding_all rfl
  have decoded' : FieldTable.decode (body 9) = .ok table := by
    with_unfolding_all rfl
  obtain ⟨joined, cut⟩ := FieldTable.cut_and_joined decoded
  refine ⟨(joined _ _).mpr ⟨table, decoded', rfl⟩, (cut 24 (by decide)).1 1 rfl,
    (cut 20 (by decide)).2 fun k => ?_⟩
  cases k with
  | zero => decide
  | succ k =>
    have first : size (table.take (k + 1)) = 24 + size (table.tail.take k) := rfl
    omega

end QueueArguments

end WireProtocol
