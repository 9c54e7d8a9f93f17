import WireProtocol.Payload.Reader
import WireProtocol.Proofs.Outcome
import WireProtocol.Proofs.Table.Grammar

/-!
# What reading steps accept

* `Reads step form`: the step succeeds exactly where octets of the form come first. It reads these
  octets and no others, and returns what they spell.
* `Reads.bind`: the form of two steps, one after the other.
* `Reads.octet` to `Reads.table`: the forms of the primitive encodings.
* `Reads.whole`: a payload that has to be read to its end is accepted exactly when it is of the form.
-/

namespace WireProtocol

namespace Reader

variable {r : Reader} {octets rest : Bytes}

theorem advance_advance (r : Reader) (m n : Nat) : (r.advance m).advance n = r.advance (m + n) := by
  simp only [advance, Nat.add_assoc]

theorem rest_advance (n : Nat) (r : Reader) : (r.advance n).rest = r.rest.drop n := by
  simp only [rest, advance, List.drop_drop]

theorem rest_advance_of_append (h : r.rest = octets ++ rest) :
    (r.advance octets.length).rest = rest := by
  rw [rest_advance, h, List.drop_left]

end Reader

/-- The step succeeds exactly where octets of the form come first: it reads them, and it returns
what they spell. -/
def Reads {α : Type} (step : Read α) (form : α → Bytes → Prop) : Prop :=
  ∀ r value r', step.run r = (.ok value, r') ↔
    ∃ octets rest, form value octets ∧ r.rest = octets ++ rest ∧ r' = r.advance octets.length

namespace Read

variable {α β : Type}

theorem run_pure (value : α) (r : Reader) : (pure value : Read α).run r = (.ok value, r) := rfl

theorem run_bind_eq_ok {step : Read α} {next : α → Read β} {r r' : Reader} {value : β} :
    (step >>= next).run r = (.ok value, r') ↔
      ∃ first r₁, step.run r = (.ok first, r₁) ∧ (next first).run r₁ = (.ok value, r') :=
  ExceptT.run_bind_eq_ok

theorem run_fst_eq_ok {step : Read α} {r : Reader} {value : α} :
    (step.run r).1 = .ok value ↔ ∃ r', step.run r = (.ok value, r') := by
  constructor
  · intro h
    exact ⟨(step.run r).2, Prod.ext h rfl⟩
  · rintro ⟨r', h⟩
    rw [h]

theorem finish_run (r : Reader) :
    finish.run r = if r.pos = r.payload.length then (.ok (), r) else (.error r.framingError, r) := by
  change (if r.pos = r.payload.length then Pure.pure () else throw r.framingError : Read Unit).run r = _
  split <;> rfl

theorem finish_run_eq_ok {r r' : Reader} :
    finish.run r = (.ok (), r') ↔ r.pos = r.payload.length ∧ r' = r := by
  rw [finish_run]
  split
  · simp [*, eq_comm]
  · simp [*]

end Read

namespace Reads

variable {α β : Type} {step : Read α} {form form' : α → Bytes → Prop}

theorem congr (h : Reads step form) (same : ∀ value octets, form value octets ↔ form' value octets) :
    Reads step form' := by
  intro r value r'
  rw [h r value r']
  simp only [same]

theorem pure (value : α) :
    Reads (pure value) fun value' octets => value' = value ∧ octets = [] := by
  intro r value' r'
  rw [Read.run_pure]
  constructor
  · intro h
    cases h
    exact ⟨[], r.rest, ⟨rfl, rfl⟩, rfl, rfl⟩
  · rintro ⟨octets, rest, ⟨rfl, rfl⟩, -, rfl⟩
    rfl

/-- The octets of two steps are those of the first and then those of the second. -/
theorem bind {next : α → Read β} {forms : α → β → Bytes → Prop} (h : Reads step form)
    (hnext : ∀ first, Reads (next first) (forms first)) :
    Reads (step >>= next) fun value octets =>
      ∃ first front back, form first front ∧ forms first value back ∧ octets = front ++ back := by
  intro r value r'
  rw [Read.run_bind_eq_ok]
  constructor
  · rintro ⟨first, r₁, ran, ran'⟩
    obtain ⟨front, rest, spelled, parts, rfl⟩ := (h r first r₁).mp ran
    obtain ⟨back, rest', spelled', parts', rfl⟩ := (hnext first _ value r').mp ran'
    rw [Reader.rest_advance_of_append parts] at parts'
    refine ⟨front ++ back, rest', ⟨first, front, back, spelled, spelled', rfl⟩, ?_, ?_⟩
    · rw [parts, parts', List.append_assoc]
    · rw [Reader.advance_advance, List.length_append]
  · rintro ⟨octets, rest, ⟨first, front, back, spelled, spelled', rfl⟩, parts, rfl⟩
    rw [List.append_assoc] at parts
    refine ⟨first, r.advance front.length, ?_, ?_⟩
    · exact (h r first _).mpr ⟨front, back ++ rest, spelled, parts, rfl⟩
    · refine (hnext first _ value _).mpr
        ⟨back, rest, spelled', Reader.rest_advance_of_append parts, ?_⟩
      rw [Reader.advance_advance, List.length_append]

theorem map (h : Reads step form) (f : α → β) :
    Reads (step >>= fun value => Pure.pure (f value)) fun value octets =>
      ∃ first, form first octets ∧ f first = value := by
  refine (h.bind fun first => pure (f first)).congr fun value octets => ?_
  constructor
  · rintro ⟨first, front, back, spelled, ⟨rfl, rfl⟩, rfl⟩
    exact ⟨first, by rwa [List.append_nil], rfl⟩
  · rintro ⟨first, spelled, rfl⟩
    exact ⟨first, octets, [], spelled, ⟨rfl, rfl⟩, (List.append_nil octets).symm⟩

/-- A step that refuses accepts nothing. -/
theorem never (h : ∀ r value r', step.run r ≠ (.ok value, r')) : Reads step fun _ _ => False := by
  intro r value r'
  constructor
  · exact fun ran => (h r value r' ran).elim
  · rintro ⟨octets, rest, impossible, -⟩
    exact impossible.elim

/-! ## Primitive encodings -/

open BigEndian

theorem take (n : Nat) : Reads (Read.take n) fun value octets => value = octets ∧ octets.length = n := by
  intro r value r'
  change (if n ≤ r.remaining then _ else _) = _ ↔ _
  rw [← Reader.length_rest]
  split
  · rename_i enough
    constructor
    · intro h
      cases h
      refine ⟨r.rest.take n, r.rest.drop n, ⟨rfl, ?_⟩, (List.take_append_drop n r.rest).symm, ?_⟩
      · exact List.length_take_of_le enough
      · rw [List.length_take_of_le enough]
    · rintro ⟨octets, rest, ⟨rfl, rfl⟩, parts, rfl⟩
      rw [parts, List.take_left]
  · rename_i short
    constructor
    · intro h
      cases h
    · rintro ⟨octets, rest, ⟨rfl, rfl⟩, parts, rfl⟩
      rw [parts, List.length_append] at short
      omega

theorem number (width : Nat) :
    Reads (Read.number width) fun n octets => n < capacity width ∧ octets = encode width n := by
  refine ((take width).map decode).congr fun n octets => ?_
  constructor
  · rintro ⟨first, ⟨rfl, rfl⟩, rfl⟩
    exact ⟨decode_lt first, (encode_decode first).symm⟩
  · rintro ⟨bound, rfl⟩
    exact ⟨_, ⟨rfl, length_encode width n⟩, decode_encode_of_lt bound⟩

theorem counted (width : Nat) :
    Reads (Read.counted width) fun value octets =>
      value.length < capacity width ∧ octets = encode width value.length ++ value := by
  refine ((number width).bind fun n => take n).congr fun value octets => ?_
  constructor
  · rintro ⟨n, front, back, ⟨bound, rfl⟩, ⟨rfl, rfl⟩, rfl⟩
    exact ⟨bound, rfl⟩
  · rintro ⟨bound, rfl⟩
    exact ⟨value.length, _, _, ⟨bound, rfl⟩, ⟨rfl, rfl⟩, rfl⟩

/-- A word is read where the number of its width is. -/
private theorem word {width : Nat} {ofNat : Nat → α} {toNat : α → Nat}
    (decoded : ∀ octets value, octets.length = width ∧ ofNat (decode octets) = value ↔
      octets = encode width (toNat value)) :
    Reads (Read.number width >>= fun n => Pure.pure (ofNat n)) fun value octets =>
      octets = encode width (toNat value) := by
  refine ((number width).map ofNat).congr fun value octets => ?_
  rw [← decoded]
  constructor
  · rintro ⟨n, ⟨bound, rfl⟩, rfl⟩
    rw [decode_encode_of_lt bound]
    exact ⟨length_encode width n, rfl⟩
  · rintro ⟨rfl, rfl⟩
    exact ⟨decode octets, ⟨decode_lt octets, (encode_decode octets).symm⟩, rfl⟩

theorem octet : Reads Read.octet fun value octets => octets = encode 1 value.toNat :=
  word fun _ _ => uint8_decode_iff

theorem short : Reads Read.short fun value octets => octets = encode 2 value.toNat :=
  word fun _ _ => uint16_decode_iff

theorem long : Reads Read.long fun value octets => octets = encode 4 value.toNat :=
  word fun _ _ => uint32_decode_iff

theorem longlong : Reads Read.longlong fun value octets => octets = encode 8 value.toNat :=
  word fun _ _ => uint64_decode_iff

/-- A table is read where a body that spells it stands behind its length. -/
theorem table :
    Reads Read.table fun table octets => ∃ body, EntriesForm table body ∧
      body.length < capacity 4 ∧ octets = encode 4 body.length ++ body := by
  refine (@bind _ _ _ _ _ (fun body table octets => EntriesForm table body ∧ octets = [])
    (counted 4) fun body => ?_).congr fun table octets => ?_
  · cases h : FieldTable.decode body with
    | ok table =>
      refine (pure table).congr fun table' octets => and_congr_left' ?_
      rw [← FieldTable.decode_eq_ok, h, Except.ok.injEq, eq_comm]
    | error source =>
      refine (never ?_).congr fun table octets => ?_
      · intro r table r' ran
        cases ran
      · rw [← FieldTable.decode_eq_ok, h]
        simp
  · constructor
    · rintro ⟨body, front, back, ⟨bound, rfl⟩, ⟨spelled, rfl⟩, rfl⟩
      exact ⟨body, spelled, bound, List.append_nil _⟩
    · rintro ⟨body, spelled, bound, rfl⟩
      exact ⟨body, _, [], ⟨bound, rfl⟩, ⟨spelled, rfl⟩, (List.append_nil _).symm⟩

/-! ## Whole payloads -/

/-- A payload that has to be read to its end is accepted exactly when it is of the form. -/
theorem whole (h : Reads step form) {name : String} {payload : Bytes} {value : α} :
    ((step >>= fun value => Read.finish >>= fun _ => Pure.pure value : Read α).run
        (Reader.start name payload)).1 = .ok value ↔
      form value payload := by
  rw [Read.run_fst_eq_ok]
  constructor
  · rintro ⟨r', accepted⟩
    obtain ⟨value', r₁, ran, rest⟩ := Read.run_bind_eq_ok.mp accepted
    obtain ⟨⟨⟩, r₂, finished, same⟩ := Read.run_bind_eq_ok.mp rest
    obtain ⟨ended, rfl⟩ := Read.finish_run_eq_ok.mp finished
    cases same
    obtain ⟨octets, left, spelled, parts, rfl⟩ := (h _ value _).mp ran
    change payload = octets ++ left at parts
    have all : 0 + octets.length = payload.length := ended
    -- The end has been reached, so nothing is left behind the octets of the step.
    have none : left = [] := by
      apply List.eq_nil_of_length_eq_zero
      rw [parts, List.length_append] at all
      omega
    rwa [parts, none, List.append_nil]
  · intro spelled
    have ran := (h (Reader.start name payload) value _).mpr
      ⟨payload, [], spelled, (List.append_nil payload).symm, rfl⟩
    have finished : Read.finish.run ((Reader.start name payload).advance payload.length) =
        (.ok (), (Reader.start name payload).advance payload.length) :=
      Read.finish_run_eq_ok.mpr ⟨Nat.zero_add payload.length, rfl⟩
    exact ⟨_, Read.run_bind_eq_ok.mpr
      ⟨value, _, ran, Read.run_bind_eq_ok.mpr ⟨(), _, finished, rfl⟩⟩⟩

end Reads

end WireProtocol
