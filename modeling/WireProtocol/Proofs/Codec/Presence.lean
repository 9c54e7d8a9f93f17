import WireProtocol.Proofs.Codec.Properties
import WireProtocol.Proofs.Payload.Stability

/-!
# What the flags of properties tell

* `leadingFlags`: the flags at the front of a payload.
* `carriedValues`, `propertiesWire_eq`: the values behind the flags are those that are no bits.
* `PropertyLayout.decode_of_short`, `PropertyLayout.decode_of_reserved`: payloads that are refused for
  their flags, whatever comes behind these.
* `PropertyLayout.flags_tell_presence`: the flags say which properties are there, in what is written
  and in what is read.
-/

namespace WireProtocol

/-- The flags at the front of a payload. -/
def leadingFlags (payload : Bytes) : UInt16 :=
  UInt16.ofNat (BigEndian.decode (payload.take 2))

/-- The values of a record that stand behind the flags. -/
def carriedValues (record : List (Option WireValue)) : List WireValue :=
  (record.filterMap id).filter fun value => !value.wireType.isBit

theorem leadingFlags_append (flags : UInt16) (body : Bytes) :
    leadingFlags (BigEndian.encode 2 flags.toNat ++ body) = flags := by
  rw [leadingFlags, List.take_left' (BigEndian.length_encode 2 flags.toNat),
    BigEndian.uint16_decode_encode]

/-- A payload that is long enough begins with its flags. -/
theorem eq_leadingFlags_append {payload : Bytes} (enough : 2 ≤ payload.length) :
    payload = BigEndian.encode 2 (leadingFlags payload).toNat ++ payload.drop 2 := by
  obtain ⟨flags, front, same⟩ := BigEndian.exists_uint16 (List.length_take_of_le enough)
  rw [leadingFlags, same, ← front, List.take_append_drop]

/-- A property at one of the first sixteen places is there when its flag is set. -/
theorem testBit_presenceFlags_iff {record : List (Option WireValue)} {i : Nat} (inside : i < 16) :
    (presenceFlags 0 (record.map Option.isSome)).toNat.testBit (15 - i) = true ↔
      ∃ value, record[i]? = some (some value) := by
  rw [testBit_presenceFlags_of_le (Nat.le_of_lt_succ inside), List.getD_eq_getElem?_getD,
    List.getElem?_map]
  rcases record[i]? with _ | _ | value <;> simp

namespace TypedProperties

variable {types : List WireType} {record : List (Option WireValue)} {i : Nat} {ty : WireType}

/-- Each property is absent, or has a value of its own type. -/
theorem getElem?_cases (h : TypedProperties types record) (here : types[i]? = some ty) :
    record[i]? = some none ∨ ∃ value, value.wireType = ty ∧ record[i]? = some (some value) := by
  induction h generalizing i with
  | nil => cases here
  | absent rest ih =>
    cases i with
    | zero => exact .inl rfl
    | succ i => exact ih here
  | present type rest ih =>
    cases i with
    | zero =>
      cases here
      exact .inr ⟨_, type, rfl⟩
    | succ i => exact ih here

/-- A property is there without the bits that are false when it is a bit that is true, or any value of
another type. -/
theorem getElem?_dropFalse (h : TypedProperties types record) (here : types[i]? = some ty) :
    (∃ value, (record.map dropFalse)[i]? = some (some value)) ↔
      if ty.isBit then record[i]? = some (some (.bit true))
      else ∃ value, record[i]? = some (some value) := by
  rw [List.getElem?_map]
  rcases h.getElem?_cases here with absent | ⟨value, rfl, present⟩
  · rw [absent]
    split <;> simp [dropFalse]
  · rw [present]
    cases single : value.wireType.isBit with
    | true =>
      obtain ⟨set, rfl⟩ := WireValue.eq_bit_of_isBit single
      cases set <;> simp [dropFalse]
    | false => simp [dropFalse_of_single single]

end TypedProperties

/-! ## Behind the flags -/

/-- What is written for properties is what is written for the values that stand behind the flags. -/
theorem propertiesWire_eq (record : List (Option WireValue)) :
    propertiesWire record = ((carriedValues record).mapM WireValue.wire).map List.flatten := by
  induction record with
  | nil => rfl
  | cons value record ih =>
    cases value with
    | none => exact (propertiesWire_cons_nil rfl).trans ih
    | some value =>
      cases single : value.wireType.isBit with
      | true =>
        obtain ⟨set, rfl⟩ := WireValue.eq_bit_of_isBit single
        exact (propertiesWire_cons_nil rfl).trans ih
      | false =>
        have carried : carriedValues (some value :: record) = value :: carriedValues record := by
          simp [carriedValues, single]
        rw [propertiesWire, propertyWire_of_single single, ih, carried, List.mapM_cons]
        cases value.wire <;> cases (carriedValues record).mapM WireValue.wire <;> rfl

namespace PropertyLayout

variable {p : PropertyLayout} {record : List (Option WireValue)} {payload octets : Bytes}

/-- A payload is refused when it is too short for the flags. -/
theorem decode_of_short (nonempty : p.properties ≠ []) (short : payload.length < 2) :
    p.decode payload = .error (.framing p.name payload) := by
  have few : (Reader.start p.name payload).remaining < 2 := short
  have number : (Read.number 2).run (Reader.start p.name payload) =
      (.error (.framing p.name payload), Reader.start p.name payload) :=
    ExceptT.run_bind_of_error _ (Read.take_run_of_lt few)
  have flags : Read.short.run (Reader.start p.name payload) =
      (.error (.framing p.name payload), Reader.start p.name payload) :=
    ExceptT.run_bind_of_error _ number
  rw [decode, readRecord_of_nonempty nonempty]
  exact congrArg Prod.fst (Read.toEnd_run_of_error (ExceptT.run_bind_of_error _ flags))

/-- A payload is refused when a reserved flag is set, whatever comes behind the flags. -/
theorem decode_of_reserved (nonempty : p.properties ≠ []) (enough : 2 ≤ payload.length)
    (reserved : leadingFlags payload &&& reservedMask p.properties.length ≠ 0) :
    p.decode payload = .error (.reservedFlags p.classId (leadingFlags payload)) := by
  have flags : Read.short.run (Reader.start p.name payload) =
      (.ok (leadingFlags payload), (Reader.start p.name payload).advance 2) := by
    refine (Reads.short _ _ _).mpr ⟨_, payload.drop 2, rfl, eq_leadingFlags_append enough, ?_⟩
    rw [BigEndian.length_encode]
  have refused : p.readFlagged.run (Reader.start p.name payload) =
      (.error (.reservedFlags p.classId (leadingFlags payload)),
        (Reader.start p.name payload).advance 2) := by
    refine (ExceptT.run_bind_of_ok _ flags).trans ?_
    rw [if_neg reserved]
    rfl
  rw [decode, readRecord_of_nonempty nonempty]
  exact congrArg Prod.fst (Read.toEnd_run_of_error refused)

/-- What is written begins with the flags of the properties that are there, and behind these come
the values that are no bits. -/
theorem flags_of_encode (nonempty : p.properties ≠ []) (bound : p.properties.length ≤ 16)
    (typed : TypedProperties p.types record) (encoded : p.encode record = .ok octets) :
    2 ≤ octets.length ∧
      (∀ i ty, p.types[i]? = some ty →
        ((leadingFlags octets).toNat.testBit (15 - i) = true ↔
          if ty.isBit then record[i]? = some (some (.bit true))
          else ∃ value, record[i]? = some (some value))) ∧
      (∀ place < 16 - p.properties.length, (leadingFlags octets).toNat.testBit place = false) ∧
      ∃ pieces, (carriedValues record).mapM WireValue.wire = .ok pieces ∧
        octets.drop 2 = pieces.flatten := by
  rw [encode_of_nonempty nonempty typed] at encoded
  obtain ⟨body, written, rfl⟩ := Except.map_eq_ok.mp encoded
  rw [propertiesWire_eq] at written
  obtain ⟨pieces, carried, rfl⟩ := Except.map_eq_ok.mp written
  have count : p.types.length = p.properties.length := List.length_map _
  rw [leadingFlags_append, List.length_append, BigEndian.length_encode]
  refine ⟨Nat.le_add_right 2 _, fun i ty here => ?_, fun place reserved => ?_, pieces, carried,
    List.drop_left' (BigEndian.length_encode 2 _)⟩
  · have inside : i < 16 := by
      obtain ⟨inside, -⟩ := List.getElem?_eq_some_iff.mp here
      omega
    rw [testBit_presenceFlags_iff inside, typed.getElem?_dropFalse here]
  · apply testBit_presenceFlags_of_reserved
    rwa [List.length_map, List.length_map, typed.length_eq, count]

/-- The properties that are read are those whose flags are set. -/
theorem flags_of_decode (nonempty : p.properties ≠ []) (bound : p.properties.length ≤ 16)
    (decoded : p.decode payload = .ok record) :
    record.length = p.properties.length ∧ ∀ i < p.properties.length,
      ((∃ value, record[i]? = some (some value)) ↔
        (leadingFlags payload).toNat.testBit (15 - i) = true) := by
  cases (decode_eq_ok bound).mp decoded with
  | empty none _ => exact (nonempty none).elim
  | flagged _ form =>
    have count : record.length = p.properties.length := by
      rw [form.length_eq, types, List.length_map]
    refine ⟨count, fun i inside => ?_⟩
    rw [leadingFlags_append, testBit_presenceFlags_iff (Nat.lt_of_lt_of_le inside bound)]

/-- The flags tell which properties of a class are there. A record is written as the flags of its
properties, that of a bit for its truth, none of the reserved ones, and then the values that are no
bits. A payload that is read has to bring its flags, none of the reserved ones may be set, and the
properties are then those whose flags are set. -/
theorem flags_tell_presence {d : Description} {c : Class} (resolved : d.propertyLayout c = .ok p)
    (positive : 1 ≤ c.properties.length) (bound : c.properties.length ≤ maxProperties) :
    (∀ record octets, TypedProperties p.types record → p.encode record = .ok octets →
      2 ≤ octets.length ∧
        (∀ i ty, p.types[i]? = some ty →
          ((leadingFlags octets).toNat.testBit (15 - i) = true ↔
            if ty.isBit then record[i]? = some (some (.bit true))
            else ∃ value, record[i]? = some (some value))) ∧
        (∀ place < 16 - c.properties.length,
          (leadingFlags octets).toNat.testBit place = false) ∧
        ∃ pieces, (carriedValues record).mapM WireValue.wire = .ok pieces ∧
          octets.drop 2 = pieces.flatten) ∧
      ∀ payload,
        (payload.length < 2 → p.decode payload = .error (.framing c.name payload)) ∧
        (2 ≤ payload.length → ∀ place < 16 - c.properties.length,
          (leadingFlags payload).toNat.testBit place = true →
            p.decode payload = .error (.reservedFlags c.id (leadingFlags payload))) ∧
        ∀ record, p.decode payload = .ok record →
          record.length = c.properties.length ∧ ∀ i < c.properties.length,
            ((∃ value, record[i]? = some (some value)) ↔
              (leadingFlags payload).toNat.testBit (15 - i) = true) := by
  have count := Description.length_of_propertyLayout resolved
  obtain ⟨id, name, -⟩ := Description.propertyLayout_eq_ok.mp resolved
  rw [← count] at positive bound ⊢
  rw [← id, ← name]
  have nonempty : p.properties ≠ [] := List.length_pos_iff.mp positive
  have within : p.properties.length ≤ 16 := Nat.le_succ_of_le bound
  refine ⟨fun record octets typed encoded => flags_of_encode nonempty within typed encoded,
    fun payload => ⟨decode_of_short nonempty, fun enough place reserved set => ?_,
      fun record decoded => flags_of_decode nonempty within decoded⟩⟩
  refine decode_of_reserved nonempty enough fun clear => ?_
  rw [and_reservedMask_eq_zero_iff.mp clear place reserved] at set
  cases set

end PropertyLayout

/-- A bit that is false has no flag, a reserved flag is refused before the octets behind the flags are
read, and so is half of the flags. -/
theorem BasicContent.flags_of_record :
    ((leadingFlags (BasicContent.payload 1)).toNat.testBit 12 = true ∧
      (leadingFlags (BasicContent.payload 1)).toNat.testBit 13 ≠ true ∧
      ∃ pieces, (carriedValues (BasicContent.record (some (.bit false)))).mapM WireValue.wire =
          .ok pieces ∧
        (BasicContent.payload 1).drop 2 = pieces.flatten) ∧
    BasicContent.layout.decode [0xD0] = .error (.framing "basic" [0xD0]) ∧
    BasicContent.layout.decode [0xD4, 0, 9] = .error (.reservedFlags 60 0xD400) ∧
    ∃ value, (BasicContent.record none)[3]? = some (some value) := by
  have resolved : BasicContent.description.propertyLayout BasicContent.basic =
      .ok BasicContent.layout := rfl
  have law := PropertyLayout.flags_tell_presence resolved (by decide) (by decide)
  have typed : TypedProperties BasicContent.layout.types
      (BasicContent.record (some (.bit false))) :=
    .present rfl (.present rfl (.present rfl (.present rfl (.absent .nil))))
  have encoded : BasicContent.layout.encode (BasicContent.record (some (.bit false))) =
      .ok (BasicContent.payload 1) := rfl
  have decoded : BasicContent.layout.decode (BasicContent.payload 1) =
      .ok (BasicContent.record none) := by
    with_unfolding_all rfl
  obtain ⟨-, flags, -, carried⟩ := law.1 _ _ typed encoded
  have redelivered := flags 2 .bit rfl
  have persistent := flags 3 .bit rfl
  refine ⟨⟨persistent.mpr rfl, fun set => ?_, carried⟩, (law.2 _).1 (by decide),
    (law.2 _).2.1 (by decide) 10 (by decide) (by decide), ?_⟩
  · cases redelivered.mp set
  · exact (((law.2 _).2.2 _ decoded).2 3 (by decide)).mpr (by decide)

end WireProtocol
