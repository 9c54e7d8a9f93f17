import WireProtocol.Proofs.Bytes.Words
import WireProtocol.Proofs.Outcome
import WireProtocol.Table.Decode

/-!
# The grammar of field tables

Which octets spell which values, said without a decoder.

* `ValueForm`, `ValuesForm`, `EntriesForm`: the octets of a value, of the contents of an array, and
  of the contents of a table.
* `FieldTable.decode_eq_ok`: a body is decoded to a table exactly when it spells that table.
-/

namespace WireProtocol

open FieldValue (Kind)

mutual

/-- The octets of a value: its tag, and a payload. -/
inductive ValueForm : FieldValue → Bytes → Prop where
  | void : ValueForm .void [Kind.void.tag]
  | bool (octet : UInt8) : ValueForm (.bool (octet != 0)) [Kind.bool.tag, octet]
  | int8 (value : Int8) : ValueForm (.int8 value) [Kind.int8.tag, value.toUInt8]
  | uint8 (value : UInt8) : ValueForm (.uint8 value) [Kind.uint8.tag, value]
  | int16 (value : Int16) :
    ValueForm (.int16 value) (Kind.int16.tag :: BigEndian.encode 2 value.toUInt16.toNat)
  | uint16 (value : UInt16) :
    ValueForm (.uint16 value) (Kind.uint16.tag :: BigEndian.encode 2 value.toNat)
  | int32 (value : Int32) :
    ValueForm (.int32 value) (Kind.int32.tag :: BigEndian.encode 4 value.toUInt32.toNat)
  | uint32 (value : UInt32) :
    ValueForm (.uint32 value) (Kind.uint32.tag :: BigEndian.encode 4 value.toNat)
  | float32 (bits : UInt32) :
    ValueForm (.float32 bits) (Kind.float32.tag :: BigEndian.encode 4 bits.toNat)
  | int64 (value : Int64) :
    ValueForm (.int64 value) (Kind.int64.tag :: BigEndian.encode 8 value.toUInt64.toNat)
  | timestamp (value : UInt64) :
    ValueForm (.timestamp value) (Kind.timestamp.tag :: BigEndian.encode 8 value.toNat)
  | float64 (bits : UInt64) :
    ValueForm (.float64 bits) (Kind.float64.tag :: BigEndian.encode 8 bits.toNat)
  | decimal (scale : UInt8) (value : UInt32) :
    ValueForm (.decimal scale value)
      (Kind.decimal.tag :: scale :: BigEndian.encode 4 value.toNat)
  | longstr {bytes : Bytes} (bound : bytes.length < BigEndian.capacity 4) :
    ValueForm (.longstr bytes)
      (Kind.longstr.tag :: (BigEndian.encode 4 bytes.length ++ bytes))
  | binary {bytes : Bytes} (bound : bytes.length < BigEndian.capacity 4) :
    ValueForm (.binary bytes)
      (Kind.binary.tag :: (BigEndian.encode 4 bytes.length ++ bytes))
  | table {entries : FieldTable} {body : Bytes} (contents : EntriesForm entries body)
    (bound : body.length < BigEndian.capacity 4) :
    ValueForm (.table entries) (Kind.table.tag :: (BigEndian.encode 4 body.length ++ body))
  | array {values : List FieldValue} {body : Bytes} (contents : ValuesForm values body)
    (bound : body.length < BigEndian.capacity 4) :
    ValueForm (.array values) (Kind.array.tag :: (BigEndian.encode 4 body.length ++ body))

/-- The octets of values, one after the other. -/
inductive ValuesForm : List FieldValue → Bytes → Prop where
  | nil : ValuesForm [] []
  | cons {value : FieldValue} {values : List FieldValue} {first others : Bytes}
    (head : ValueForm value first) (tail : ValuesForm values others) :
    ValuesForm (value :: values) (first ++ others)

/-- The octets of entries, one after the other: the length of the name, the name, and the value. -/
inductive EntriesForm : FieldTable → Bytes → Prop where
  | nil : EntriesForm [] []
  | cons {name : Bytes} {value : FieldValue} {entries : FieldTable} {first others : Bytes}
    (bound : name.length < BigEndian.capacity 1) (head : ValueForm value first)
    (tail : EntriesForm entries others) :
    EntriesForm ((name, value) :: entries)
      (BigEndian.encode 1 name.length ++ name ++ first ++ others)

end

/-! ## Steps of a cursor -/

namespace Cursor

variable {width n : Nat} {c c' : Cursor} {octets : Bytes}

theorem takeNat_eq_ok :
    c.takeNat width = .ok (n, c') ↔
      n < BigEndian.capacity width ∧ c.rest = BigEndian.encode width n ++ c'.rest ∧
        c'.pos = c.pos + width := by
  rw [takeNat, Except.bind_eq_ok]
  constructor
  · rintro ⟨⟨octets, c''⟩, taken, same⟩
    cases same
    obtain ⟨rfl, parts, pos⟩ := take_eq_ok.mp taken
    refine ⟨BigEndian.decode_lt octets, ?_, pos⟩
    rw [BigEndian.encode_decode, parts]
  · rintro ⟨bound, parts, pos⟩
    refine ⟨(BigEndian.encode width n, c'),
      take_eq_ok.mpr ⟨BigEndian.length_encode width n, parts, pos⟩, ?_⟩
    change Except.ok (BigEndian.decode (BigEndian.encode width n), c') = .ok (n, c')
    rw [BigEndian.decode_encode_of_lt bound]

theorem takePrefixed_eq_ok :
    c.takePrefixed width = .ok (octets, c') ↔
      octets.length < BigEndian.capacity width ∧
        c.rest = BigEndian.encode width octets.length ++ octets ++ c'.rest ∧
        c'.pos = c.pos + (width + octets.length) := by
  rw [takePrefixed, Except.bind_eq_ok]
  constructor
  · rintro ⟨⟨length, c''⟩, counted, taken⟩
    obtain ⟨bound, front, pos⟩ := takeNat_eq_ok.mp counted
    obtain ⟨rfl, back, pos'⟩ := take_eq_ok.mp taken
    refine ⟨bound, ?_, ?_⟩
    · rw [front, back, List.append_assoc]
    · rw [pos', pos, Nat.add_assoc]
  · rintro ⟨bound, parts, pos⟩
    refine ⟨(octets.length, ⟨c.pos + width, octets ++ c'.rest⟩),
      takeNat_eq_ok.mpr ⟨bound, ?_, rfl⟩, take_eq_ok.mpr ⟨rfl, rfl, ?_⟩⟩
    · rw [parts, List.append_assoc]
    · rw [pos, Nat.add_assoc]

end Cursor

namespace PayloadForm

/-- How long a payload of the form may be. -/
def Admits (payload : Bytes) : PayloadForm → Prop
  | fixed width => payload.length = width
  | scaled width => payload.length = 1 + width
  | counted => payload.length < BigEndian.capacity 4

/-- A payload as it is carried. -/
def carried (payload : Bytes) : PayloadForm → Bytes
  | fixed _ | scaled _ => payload
  | counted => BigEndian.encode 4 payload.length ++ payload

theorem read_eq_ok {form : PayloadForm} {c c' : Cursor} {payload : Bytes} :
    form.read c = .ok (payload, c') ↔
      form.Admits payload ∧ c.rest = form.carried payload ++ c'.rest ∧
        c'.pos = c.pos + (form.carried payload).length := by
  cases form with
  | fixed width =>
    rw [PayloadForm.read, Cursor.take_eq_ok]
    constructor
    · rintro ⟨rfl, parts, pos⟩
      exact ⟨rfl, parts, pos⟩
    · rintro ⟨rfl, parts, pos⟩
      exact ⟨rfl, parts, pos⟩
  | scaled width =>
    simp only [PayloadForm.read, Except.bind_eq_ok]
    constructor
    · rintro ⟨⟨scale, c₁⟩, first, ⟨value, c₂⟩, second, same⟩
      cases same
      obtain ⟨length, front, pos⟩ := Cursor.take_eq_ok.mp first
      obtain ⟨rfl, back, pos'⟩ := Cursor.take_eq_ok.mp second
      refine ⟨?_, ?_, ?_⟩
      · rw [Admits, List.length_append, length]
      · rw [front, back, carried, List.append_assoc]
      · rw [pos', pos, carried, List.length_append, length, Nat.add_assoc]
    · rintro ⟨length, parts, pos⟩
      have split : payload.take 1 ++ payload.drop 1 = payload := List.take_append_drop 1 payload
      have one : (payload.take 1).length = 1 := by
        rw [List.length_take, length]
        omega
      have more : (payload.drop 1).length = width := by
        rw [List.length_drop, length]
        omega
      refine ⟨(payload.take 1, ⟨c.pos + 1, payload.drop 1 ++ c'.rest⟩),
        Cursor.take_eq_ok.mpr ⟨one, ?_, rfl⟩, (payload.drop 1, c'),
        Cursor.take_eq_ok.mpr ⟨more, rfl, ?_⟩, ?_⟩
      · rw [parts, carried, ← List.append_assoc, split]
      · rw [pos, carried, length, Nat.add_assoc]
      · rw [split]
        rfl
  | counted =>
    rw [PayloadForm.read, Cursor.takePrefixed_eq_ok, carried, List.length_append,
      BigEndian.length_encode]
    rfl

end PayloadForm

theorem FieldItem.read_eq_ok {item : FieldItem} {c c' : Cursor} :
    read c = .ok (item, c') ↔
      ∃ (kind : Kind) (payload : Bytes), item = ofPayload kind payload ∧
        kind.form.Admits payload ∧
        c.rest = kind.tag :: kind.form.carried payload ++ c'.rest ∧
        c'.pos = c.pos + (kind.tag :: kind.form.carried payload).length := by
  constructor
  · intro h
    unfold read at h
    split at h
    · cases h
    · rename_i tag c₁ first
      split at h
      · cases h
      · rename_i kind known
        split at h
        · cases h
        · rename_i payload c₂ second
          cases h
          obtain ⟨length, front, pos⟩ := Cursor.take_eq_ok.mp first
          obtain ⟨admits, back, pos'⟩ := PayloadForm.read_eq_ok.mp second
          obtain ⟨octet, rfl⟩ := List.length_eq_one_iff.mp length
          rw [List.headD_cons] at known
          refine ⟨kind, payload, rfl, admits, ?_, ?_⟩
          · rw [front, back, Kind.tag_of_ofTag? known]
            rfl
          · rw [pos', pos, List.length_cons, Nat.add_assoc, Nat.add_comm 1]
  · rintro ⟨kind, payload, rfl, admits, parts, pos⟩
    have first : c.take 1 =
        .ok ([kind.tag], ⟨c.pos + 1, kind.form.carried payload ++ c'.rest⟩) :=
      Cursor.take_eq_ok.mpr ⟨rfl, parts, rfl⟩
    have second : kind.form.read ⟨c.pos + 1, kind.form.carried payload ++ c'.rest⟩ =
        .ok (payload, c') := by
      refine PayloadForm.read_eq_ok.mpr ⟨admits, rfl, ?_⟩
      rw [pos, List.length_cons, Nat.add_assoc, Nat.add_comm 1]
    simp only [read, first, List.headD_cons, Kind.ofTag?_tag, second]

/-! ## Steps of a decoder -/

namespace FieldTable

theorem decodeEntries_eq_ok {c : Cursor} {entries : FieldTable} :
    decodeEntries c = .ok entries ↔
      c.rest = [] ∧ entries = [] ∨
      ∃ name c₁ item c₂ value others, c.rest ≠ [] ∧ c.takePrefixed 1 = .ok (name, c₁) ∧
        FieldItem.read c₁ = .ok (item, c₂) ∧ decodeItem item = .ok value ∧
        decodeEntries c₂ = .ok others ∧ entries = (name, value) :: others := by
  constructor
  · intro h
    unfold decodeEntries at h
    split at h
    · rename_i done
      cases h
      exact .inl ⟨List.isEmpty_iff.mp done, rfl⟩
    · rename_i more
      have some : c.rest ≠ [] := fun none => more (List.isEmpty_iff.mpr none)
      split at h
      · cases h
      · rename_i name c₁ named
        split at h
        · cases h
        · rename_i item c₂ read
          split at h
          · cases h
          · rename_i value decoded
            split at h
            · cases h
            · rename_i others rest
              cases h
              exact .inr ⟨name, c₁, item, c₂, value, others, some, named, read, decoded, rest, rfl⟩
  · rintro (⟨done, rfl⟩ | ⟨name, c₁, item, c₂, value, others, more, named, read, decoded, rest, rfl⟩)
    · rw [decodeEntries, done]
      rfl
    · have some : ¬ c.rest.isEmpty = true := fun done => more (List.isEmpty_iff.mp done)
      rw [decodeEntries, if_neg some]
      split
      · simp_all
      · rename_i named'
        cases named.symm.trans named'
        split
        · simp_all
        · rename_i read'
          cases read.symm.trans read'
          simp only [decoded, rest]

theorem decodeValues_eq_ok {c : Cursor} {values : List FieldValue} :
    decodeValues c = .ok values ↔
      c.rest = [] ∧ values = [] ∨
      ∃ item c₁ value others, c.rest ≠ [] ∧ FieldItem.read c = .ok (item, c₁) ∧
        decodeItem item = .ok value ∧ decodeValues c₁ = .ok others ∧ values = value :: others := by
  constructor
  · intro h
    unfold decodeValues at h
    split at h
    · rename_i done
      cases h
      exact .inl ⟨List.isEmpty_iff.mp done, rfl⟩
    · rename_i more
      have some : c.rest ≠ [] := fun none => more (List.isEmpty_iff.mpr none)
      split at h
      · cases h
      · rename_i item c₁ read
        split at h
        · cases h
        · rename_i value decoded
          split at h
          · cases h
          · rename_i others rest
            cases h
            exact .inr ⟨item, c₁, value, others, some, read, decoded, rest, rfl⟩
  · rintro (⟨done, rfl⟩ | ⟨item, c₁, value, others, more, read, decoded, rest, rfl⟩)
    · rw [decodeValues, done]
      rfl
    · have some : ¬ c.rest.isEmpty = true := fun done => more (List.isEmpty_iff.mp done)
      rw [decodeValues, if_neg some]
      split
      · simp_all
      · rename_i read'
        cases read.symm.trans read'
        simp only [decoded, rest]

theorem decodeItem_eq_ok {item : FieldItem} {value : FieldValue} :
    decodeItem item = .ok value ↔
      item = .value value ∨
      (∃ body entries, item = .table body ∧ decodeEntries (Cursor.start body) = .ok entries ∧
        value = .table entries) ∨
      ∃ body values, item = .array body ∧ decodeValues (Cursor.start body) = .ok values ∧
        value = .array values := by
  cases item with
  | value v => simp [decodeItem]
  | table body =>
    cases contents : decodeEntries (Cursor.start body) with
    | error e => simp [decodeItem, contents]
    | ok entries => simp [decodeItem, contents, eq_comm]
  | array body =>
    cases contents : decodeValues (Cursor.start body) with
    | error e => simp [decodeItem, contents]
    | ok values => simp [decodeItem, contents, eq_comm]

end FieldTable

/-! ## What is decoded is spelled -/

open BigEndian FieldTable

private theorem decode_octet_ne_zero (octet : UInt8) :
    (BigEndian.decode [octet] != 0) = (octet != 0) := by
  rw [Bool.eq_iff_iff, bne_iff_ne, bne_iff_ne, ← encode_octet, decode_encode_of_lt octet.toNat_lt]
  exact not_congr (@UInt8.toNat_inj octet 0)

/-- What a payload without contents of its own stands for. -/
theorem ValueForm.of_payload {kind : Kind} {payload : Bytes} {value : FieldValue}
    (admits : kind.form.Admits payload) (done : FieldItem.ofPayload kind payload = .value value) :
    ValueForm value (kind.tag :: kind.form.carried payload) := by
  cases kind <;> simp only [FieldItem.ofPayload, FieldItem.value.injEq, reduceCtorEq] at done <;>
    subst done
  case void =>
    rw [List.eq_nil_of_length_eq_zero admits]
    exact .void
  case longstr => exact .longstr admits
  case binary => exact .binary admits
  case bool =>
    obtain ⟨octet, rfl⟩ := List.length_eq_one_iff.mp admits
    rw [decode_octet_ne_zero]
    exact .bool octet
  case decimal =>
    obtain ⟨scale, rest, rfl⟩ := List.exists_cons_of_length_eq_add_one
      (show payload.length = 4 + 1 from admits)
    obtain ⟨number, rfl, word⟩ := exists_uint32 (Nat.succ.inj admits)
    rw [List.headD_cons, List.tail_cons, word]
    exact .decimal scale number
  case int8 =>
    obtain ⟨number, rfl, word⟩ := exists_uint8 admits
    rw [word, encode_octet, ← UInt8.toUInt8_toInt8 number]
    exact .int8 number.toInt8
  case uint8 =>
    obtain ⟨number, rfl, word⟩ := exists_uint8 admits
    rw [word, encode_octet]
    exact .uint8 number
  case int16 =>
    obtain ⟨number, rfl, word⟩ := exists_uint16 admits
    rw [word, ← UInt16.toUInt16_toInt16 number]
    exact .int16 number.toInt16
  case uint16 =>
    obtain ⟨number, rfl, word⟩ := exists_uint16 admits
    rw [word]
    exact .uint16 number
  case int32 =>
    obtain ⟨number, rfl, word⟩ := exists_uint32 admits
    rw [word, ← UInt32.toUInt32_toInt32 number]
    exact .int32 number.toInt32
  case uint32 =>
    obtain ⟨number, rfl, word⟩ := exists_uint32 admits
    rw [word]
    exact .uint32 number
  case float32 =>
    obtain ⟨bits, rfl, word⟩ := exists_uint32 admits
    rw [word]
    exact .float32 bits
  case int64 =>
    obtain ⟨number, rfl, word⟩ := exists_uint64 admits
    rw [word, ← UInt64.toUInt64_toInt64 number]
    exact .int64 number.toInt64
  case timestamp =>
    obtain ⟨number, rfl, word⟩ := exists_uint64 admits
    rw [word]
    exact .timestamp number
  case float64 =>
    obtain ⟨bits, rfl, word⟩ := exists_uint64 admits
    rw [word]
    exact .float64 bits

mutual

theorem EntriesForm.of_decode (c : Cursor) (entries : FieldTable)
    (h : decodeEntries c = .ok entries) : EntriesForm entries c.rest := by
  rcases decodeEntries_eq_ok.mp h with
    ⟨done, rfl⟩ | ⟨name, c₁, item, c₂, value, others, -, named, read, decoded, rest, rfl⟩
  · rw [done]
    exact .nil
  · obtain ⟨bound, front, -⟩ := Cursor.takePrefixed_eq_ok.mp named
    obtain ⟨kind, payload, rfl, admits, middle, -⟩ := FieldItem.read_eq_ok.mp read
    have := Cursor.takePrefixed_length named
    have := FieldItem.read_length read
    have head := ValueForm.of_decode kind payload value admits decoded
    have tail := EntriesForm.of_decode c₂ others rest
    rw [front, middle, ← List.append_assoc]
    exact .cons bound head tail
termination_by 2 * c.rest.length
decreasing_by
  all_goals omega

theorem ValueForm.of_decode (kind : Kind) (payload : Bytes) (value : FieldValue)
    (admits : kind.form.Admits payload)
    (h : decodeItem (FieldItem.ofPayload kind payload) = .ok value) :
    ValueForm value (kind.tag :: kind.form.carried payload) := by
  rcases decodeItem_eq_ok.mp h with done | ⟨body, entries, same, contents, rfl⟩ |
    ⟨body, values, same, contents, rfl⟩
  · exact .of_payload admits done
  · have inside : (FieldItem.ofPayload kind payload).body = body := by rw [same]; rfl
    have spelled := EntriesForm.of_decode (Cursor.start body) entries contents
    cases kind <;> cases same
    exact .table spelled admits
  · have inside : (FieldItem.ofPayload kind payload).body = body := by rw [same]; rfl
    have spelled := ValuesForm.of_decode (Cursor.start body) values contents
    cases kind <;> cases same
    exact .array spelled admits
termination_by 2 * (FieldItem.ofPayload kind payload).body.length + 1
decreasing_by
  all_goals
    rw [inside]
    exact Nat.lt_succ_self _

theorem ValuesForm.of_decode (c : Cursor) (values : List FieldValue)
    (h : decodeValues c = .ok values) : ValuesForm values c.rest := by
  rcases decodeValues_eq_ok.mp h with
    ⟨done, rfl⟩ | ⟨item, c₁, value, others, -, read, decoded, rest, rfl⟩
  · rw [done]
    exact .nil
  · obtain ⟨kind, payload, rfl, admits, front, -⟩ := FieldItem.read_eq_ok.mp read
    have := FieldItem.read_length read
    have head := ValueForm.of_decode kind payload value admits decoded
    have tail := ValuesForm.of_decode c₁ others rest
    rw [front]
    exact .cons head tail
termination_by 2 * c.rest.length
decreasing_by
  all_goals omega

end

/-! ## What is spelled is decoded -/

mutual

/-- The octets of a value are a tag and a payload, and the payload stands for the value. -/
theorem ValueForm.decode {value : FieldValue} {octets : Bytes} (h : ValueForm value octets) :
    ∃ (kind : Kind) (payload : Bytes), octets = kind.tag :: kind.form.carried payload ∧
      kind.form.Admits payload ∧ decodeItem (FieldItem.ofPayload kind payload) = .ok value := by
  cases h with
  | void => exact ⟨.void, [], rfl, rfl, by simp only [FieldItem.ofPayload, decodeItem]⟩
  | bool octet =>
    refine ⟨.bool, [octet], rfl, rfl, ?_⟩
    simp only [FieldItem.ofPayload, decodeItem, decode_octet_ne_zero]
  | int8 value =>
    refine ⟨.int8, [value.toUInt8], rfl, rfl, ?_⟩
    simp only [FieldItem.ofPayload, decodeItem, ← encode_octet, uint8_decode_encode,
      Int8.toInt8_toUInt8]
  | uint8 value =>
    refine ⟨.uint8, [value], rfl, rfl, ?_⟩
    simp only [FieldItem.ofPayload, decodeItem, ← encode_octet, uint8_decode_encode]
  | int16 value =>
    refine ⟨.int16, BigEndian.encode 2 value.toUInt16.toNat, rfl, length_encode _ _, ?_⟩
    simp only [FieldItem.ofPayload, decodeItem, uint16_decode_encode, Int16.toInt16_toUInt16]
  | uint16 value =>
    refine ⟨.uint16, BigEndian.encode 2 value.toNat, rfl, length_encode _ _, ?_⟩
    simp only [FieldItem.ofPayload, decodeItem, uint16_decode_encode]
  | int32 value =>
    refine ⟨.int32, BigEndian.encode 4 value.toUInt32.toNat, rfl, length_encode _ _, ?_⟩
    simp only [FieldItem.ofPayload, decodeItem, uint32_decode_encode, Int32.toInt32_toUInt32]
  | uint32 value =>
    refine ⟨.uint32, BigEndian.encode 4 value.toNat, rfl, length_encode _ _, ?_⟩
    simp only [FieldItem.ofPayload, decodeItem, uint32_decode_encode]
  | float32 bits =>
    refine ⟨.float32, BigEndian.encode 4 bits.toNat, rfl, length_encode _ _, ?_⟩
    simp only [FieldItem.ofPayload, decodeItem, uint32_decode_encode]
  | int64 value =>
    refine ⟨.int64, BigEndian.encode 8 value.toUInt64.toNat, rfl, length_encode _ _, ?_⟩
    simp only [FieldItem.ofPayload, decodeItem, uint64_decode_encode, Int64.toInt64_toUInt64]
  | timestamp value =>
    refine ⟨.timestamp, BigEndian.encode 8 value.toNat, rfl, length_encode _ _, ?_⟩
    simp only [FieldItem.ofPayload, decodeItem, uint64_decode_encode]
  | float64 bits =>
    refine ⟨.float64, BigEndian.encode 8 bits.toNat, rfl, length_encode _ _, ?_⟩
    simp only [FieldItem.ofPayload, decodeItem, uint64_decode_encode]
  | decimal scale value =>
    refine ⟨.decimal, scale :: BigEndian.encode 4 value.toNat, rfl, rfl, ?_⟩
    simp only [FieldItem.ofPayload, decodeItem, List.headD_cons, List.tail_cons,
      uint32_decode_encode]
  | longstr bound =>
    exact ⟨.longstr, _, rfl, bound, by simp only [FieldItem.ofPayload, decodeItem]⟩
  | binary bound =>
    exact ⟨.binary, _, rfl, bound, by simp only [FieldItem.ofPayload, decodeItem]⟩
  | @table entries body contents bound =>
    refine ⟨.table, body, rfl, bound, decodeItem_eq_ok.mpr (.inr (.inl ⟨body, entries, rfl, ?_, rfl⟩))⟩
    exact EntriesForm.decode contents 0
  | @array values body contents bound =>
    refine ⟨.array, body, rfl, bound, decodeItem_eq_ok.mpr (.inr (.inr ⟨body, values, rfl, ?_, rfl⟩))⟩
    exact ValuesForm.decode contents 0

theorem ValuesForm.decode {values : List FieldValue} {octets : Bytes}
    (h : ValuesForm values octets) (pos : Nat) : decodeValues ⟨pos, octets⟩ = .ok values := by
  cases h with
  | nil => exact decodeValues_eq_ok.mpr (.inl ⟨rfl, rfl⟩)
  | @cons value values first others head tail =>
    obtain ⟨kind, payload, rfl, admits, decoded⟩ := ValueForm.decode head
    have read : FieldItem.read ⟨pos, kind.tag :: kind.form.carried payload ++ others⟩ =
        .ok (FieldItem.ofPayload kind payload,
          ⟨pos + (kind.tag :: kind.form.carried payload).length, others⟩) :=
      FieldItem.read_eq_ok.mpr ⟨kind, payload, rfl, admits, rfl, rfl⟩
    have rest := ValuesForm.decode tail (pos + (kind.tag :: kind.form.carried payload).length)
    exact decodeValues_eq_ok.mpr
      (.inr ⟨_, _, value, values, List.cons_ne_nil _ _, read, decoded, rest, rfl⟩)

theorem EntriesForm.decode {entries : FieldTable} {octets : Bytes}
    (h : EntriesForm entries octets) (pos : Nat) : decodeEntries ⟨pos, octets⟩ = .ok entries := by
  cases h with
  | nil => exact decodeEntries_eq_ok.mpr (.inl ⟨rfl, rfl⟩)
  | @cons name value entries first others bound head tail =>
    obtain ⟨kind, payload, rfl, admits, decoded⟩ := ValueForm.decode head
    have named : Cursor.takePrefixed 1 ⟨pos, BigEndian.encode 1 name.length ++ name ++
        (kind.tag :: kind.form.carried payload) ++ others⟩ =
        .ok (name, ⟨pos + (1 + name.length), kind.tag :: kind.form.carried payload ++ others⟩) :=
      Cursor.takePrefixed_eq_ok.mpr ⟨bound, List.append_assoc _ _ _, rfl⟩
    have read : FieldItem.read
        ⟨pos + (1 + name.length), kind.tag :: kind.form.carried payload ++ others⟩ =
        .ok (FieldItem.ofPayload kind payload,
          ⟨pos + (1 + name.length) + (kind.tag :: kind.form.carried payload).length, others⟩) :=
      FieldItem.read_eq_ok.mpr ⟨kind, payload, rfl, admits, rfl, rfl⟩
    have rest := EntriesForm.decode tail
      (pos + (1 + name.length) + (kind.tag :: kind.form.carried payload).length)
    have more : BigEndian.encode 1 name.length ++ name ++
        (kind.tag :: kind.form.carried payload) ++ others ≠ [] := List.cons_ne_nil _ _
    exact decodeEntries_eq_ok.mpr
      (.inr ⟨name, _, _, _, value, entries, more, named, read, decoded, rest, rfl⟩)

end

/-- A body is decoded to a table exactly when it spells that table. -/
theorem FieldTable.decode_eq_ok {body : Bytes} {table : FieldTable} :
    FieldTable.decode body = .ok table ↔ EntriesForm table body :=
  ⟨EntriesForm.of_decode (Cursor.start body) table, fun h => EntriesForm.decode h 0⟩

end WireProtocol
