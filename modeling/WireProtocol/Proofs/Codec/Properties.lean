import WireProtocol.Proofs.Codec.Property
import WireProtocol.Proofs.Layout.Fields

/-!
# Records of properties and their payloads

* `PropertyLayout.Holds`: the payload holds the record.
* `PropertyLayout.decode_eq_ok`: the payloads that are accepted.
* `PropertyLayout.holds_of_encode`: the payload that is written holds the record without the bits
  that are false.
* `PropertyLayout.round_trips`: written records read back, and accepted payloads are written in their
  normal form.
-/

namespace WireProtocol

namespace PropertyLayout

variable {p : PropertyLayout} {record : List (Option WireValue)} {payload octets : Bytes}

/-- The payload holds the record: nothing at all when there are no properties, and otherwise the
flags of the properties that are there and the octets of these. -/
inductive Holds (p : PropertyLayout) (record : List (Option WireValue)) : Bytes → Prop
  | empty (none : p.properties = []) (nothing : record = []) : Holds p record []
  | flagged {body} (some : p.properties ≠ []) (form : PropertiesForm p.types record body) :
    Holds p record
      (BigEndian.encode 2 (presenceFlags 0 (record.map Option.isSome)).toNat ++ body)

/-- The roles of the octets of a payload that holds the record. -/
def roles (p : PropertyLayout) (record : List (Option WireValue)) : List OctetRole :=
  if p.properties.isEmpty then []
  else List.replicate 2 .whole ++ record.flatMap propertyRoles

/-- No octet behind the flags is shared by several properties. -/
theorem flags_not_mem_roles (count : Nat) (p : PropertyLayout) (record : List (Option WireValue)) :
    .flags count ∉ p.roles record := by
  unfold roles
  split
  · exact List.not_mem_nil
  · rw [List.mem_append, not_or]
    refine ⟨by simp, fun shared => ?_⟩
    obtain ⟨value, -, inside⟩ := List.mem_flatMap.mp shared
    exact flags_not_mem_propertyRoles count value inside

/-- The flags and the properties, as far as none of the flags is reserved. -/
def readFlagged (p : PropertyLayout) : Read (List (Option WireValue)) := do
  let flags ← Read.short
  if flags &&& reservedMask p.properties.length = 0 then
    readPresent flags 0 p.types
  else
    throw (.reservedFlags p.classId flags)

theorem readRecord_of_nonempty (some : p.properties ≠ []) :
    p.readRecord = p.readFlagged >>= fun record => Read.finish >>= fun _ => pure record := by
  have full : ¬ p.properties.isEmpty = true := by rwa [List.isEmpty_iff]
  rw [readRecord, if_neg full, readFlagged, bind_assoc]
  congr 1
  funext flags
  by_cases clear : flags &&& reservedMask p.properties.length = 0
  · rw [if_pos clear]
    simp only [clear, ne_eq, not_true_eq_false, ↓reduceIte]
  · rw [if_neg clear]
    simp only [clear, ne_eq, not_false_eq_true, ↓reduceIte]
    rfl

/-- Flags and properties are read exactly where the flags are those of the properties. -/
theorem reads_flagged (bound : p.properties.length ≤ 16) :
    Reads p.readFlagged fun record octets => ∃ body, PropertiesForm p.types record body ∧
      octets = BigEndian.encode 2 (presenceFlags 0 (record.map Option.isSome)).toNat ++ body := by
  have guarded (flags : UInt16) : Reads
      (if flags &&& reservedMask p.properties.length = 0 then readPresent flags 0 p.types
        else throw (.reservedFlags p.classId flags))
      fun record octets => PropertiesForm p.types record octets ∧
        flags = presenceFlags 0 (record.map Option.isSome) := by
    have counted {record : List (Option WireValue)} {octets : Bytes}
        (form : PropertiesForm p.types record octets) :
        (record.map Option.isSome).length = p.properties.length := by
      rw [List.length_map, form.length_eq, types, List.length_map]
    by_cases clear : flags &&& reservedMask p.properties.length = 0
    · rw [if_pos clear]
      refine (Reads.properties flags 0 p.types).congr fun record octets => ?_
      constructor
      · rintro ⟨flagged, form⟩
        refine ⟨form, (eq_presenceFlags_iff ?_).mp ⟨?_, flagged⟩⟩
        · rwa [counted form]
        · rwa [counted form]
      · rintro ⟨form, same⟩
        exact ⟨((eq_presenceFlags_iff (by rwa [counted form])).mpr same).2, form⟩
    · rw [if_neg clear]
      refine (Reads.never fun r value r' ran => ?_).congr fun record octets => ?_
      · cases ran
      · refine ⟨False.elim, fun ⟨form, same⟩ => clear ?_⟩
        have none := ((eq_presenceFlags_iff (by rwa [counted form])).mpr same).1
        rwa [counted form] at none
  refine (Reads.short.bind guarded).congr fun record octets => ?_
  constructor
  · rintro ⟨flags, front, back, rfl, ⟨form, rfl⟩, rfl⟩
    exact ⟨back, form, rfl⟩
  · rintro ⟨body, form, rfl⟩
    exact ⟨_, _, body, rfl, ⟨form, rfl⟩, rfl⟩

/-- A payload is accepted as the one record that it holds. -/
theorem decode_eq_ok (bound : p.properties.length ≤ 16) :
    p.decode payload = .ok record ↔ p.Holds record payload := by
  unfold decode
  by_cases none : p.properties = []
  · have step : p.readRecord = pure [] >>= fun record =>
        Read.finish >>= fun _ => pure record := by
      rw [readRecord, none]
      rfl
    rw [step, (Reads.pure []).whole]
    constructor
    · rintro ⟨rfl, rfl⟩
      exact .empty none rfl
    · intro holds
      cases holds with
      | empty _ nothing => exact ⟨nothing, rfl⟩
      | flagged some _ => exact (some none).elim
  · rw [readRecord_of_nonempty none, (reads_flagged bound).whole]
    constructor
    · rintro ⟨body, form, rfl⟩
      exact .flagged none form
    · intro holds
      cases holds with
      | empty empty _ => exact (none empty).elim
      | flagged _ form => exact ⟨_, form, rfl⟩

/-- What is written for a record is the flags of the properties that are there, without the bits that
are false, and what is written for the properties. -/
theorem encode_of_nonempty (some : p.properties ≠ []) (typed : TypedProperties p.types record) :
    p.encode record = (propertiesWire record).map fun body =>
      BigEndian.encode 2 (presenceFlags 0 ((record.map dropFalse).map Option.isSome)).toNat ++
        body := by
  have full : ¬ p.properties.isEmpty = true := by rwa [List.isEmpty_iff]
  rw [encode, if_neg full]
  rcases (Writes.properties typed 0 0).run_empty with
    ⟨flags, octets, outcome, ran⟩ | ⟨e, w, outcome, ran⟩
  · obtain ⟨body, written, same⟩ := Except.map_eq_ok.mp outcome
    cases same
    rw [ran, written, UInt16.zero_or]
    rfl
  · rw [ran, Except.map_eq_error.mp outcome]
    rfl

/-- What is written for a record holds it without the bits that are false. -/
theorem holds_of_encode (typed : TypedProperties p.types record)
    (encoded : p.encode record = .ok octets) : p.Holds (record.map dropFalse) octets := by
  by_cases none : p.properties = []
  · have types : p.types = [] := by rw [PropertyLayout.types, none, List.map_nil]
    rw [types] at typed
    cases typed
    rw [encode, none] at encoded
    cases encoded
    exact .empty none rfl
  · rw [encode_of_nonempty none typed] at encoded
    obtain ⟨body, written, same⟩ := Except.map_eq_ok.mp encoded
    subst same
    exact .flagged none (.of_wire typed written)

namespace Holds

theorem length_roles (h : p.Holds record payload) : (p.roles record).length = payload.length := by
  cases h with
  | empty none nothing =>
    rw [roles, none]
    rfl
  | flagged some form =>
    have full : ¬ p.properties.isEmpty = true := by rwa [List.isEmpty_iff]
    rw [roles, if_neg full, List.length_append, List.length_append, form.length_roles,
      List.length_replicate, BigEndian.length_encode]

/-- What is written for a record is the normal form of every payload that holds it. -/
theorem encode (h : p.Holds record payload) :
    p.encode record = .ok (normalize (p.roles record) payload) := by
  cases h with
  | empty none nothing =>
    rw [PropertyLayout.encode, roles, none]
    rfl
  | flagged some form =>
    have full : ¬ p.properties.isEmpty = true := by rwa [List.isEmpty_iff]
    rw [encode_of_nonempty some form.typed, form.wire, form.map_dropFalse, roles, if_neg full,
      normalize_append (by simp), normalize_replicate (by simp)]
    rfl

theorem false_not_mem (h : p.Holds record payload) : some (.bit false) ∉ record := by
  cases h with
  | empty none nothing =>
    rw [nothing]
    exact List.not_mem_nil
  | flagged some form => exact form.false_not_mem

end Holds

end PropertyLayout

/-- The layout of the properties of a class is known by the id and the name of the class. -/
theorem Description.propertyLayout_eq_ok {d : Description} {c : Class} {p : PropertyLayout} :
    d.propertyLayout c = .ok p ↔
      p.classId = c.id ∧ p.name = c.name ∧ d.classify c.properties = .ok p.properties := by
  rw [propertyLayout, Except.bind_eq_ok]
  constructor
  · rintro ⟨properties, classified, same⟩
    cases same
    exact ⟨rfl, rfl, classified⟩
  · obtain ⟨classId, name, properties⟩ := p
    rintro ⟨rfl, rfl, classified⟩
    exact ⟨properties, classified, rfl⟩

/-- The layout of the properties of a class has as many properties as the class. -/
theorem Description.length_of_propertyLayout {d : Description} {c : Class} {p : PropertyLayout}
    (resolved : d.propertyLayout c = .ok p) : p.properties.length = c.properties.length :=
  length_of_classify (propertyLayout_eq_ok.mp resolved).2.2

/-! ## Round trips -/

namespace PropertyLayout

variable {p : PropertyLayout} {record : List (Option WireValue)} {payload octets : Bytes}

/-- A record that has been written reads back without the bits that are false. -/
theorem decode_eq_of_encode (bound : p.properties.length ≤ 16)
    (typed : TypedProperties p.types record) (encoded : p.encode record = .ok octets) :
    p.decode octets = .ok (record.map dropFalse) :=
  (decode_eq_ok bound).mpr (holds_of_encode typed encoded)

/-- A payload that has been read holds no bit that is false, and it is written in its normal form:
truth values of tables become zero or one, and every other octet stays. -/
theorem encode_eq_of_decode (bound : p.properties.length ≤ 16)
    (decoded : p.decode payload = .ok record) :
    some (.bit false) ∉ record ∧ ∃ octets, p.encode record = .ok octets ∧
      (p.roles record).length = payload.length ∧ octets.length = payload.length ∧
      octets = normalize (p.roles record) payload ∧ ∀ count, .flags count ∉ p.roles record := by
  have holds := (decode_eq_ok bound).mp decoded
  have roles := holds.length_roles
  exact ⟨holds.false_not_mem, _, holds.encode, roles, length_normalize roles, rfl,
    fun count => flags_not_mem_roles count p record⟩

/-- Without properties every record is written as nothing, and nothing is all that is accepted. -/
theorem empty_payload (none : p.properties = []) :
    (∀ record, p.encode record = .ok []) ∧
      ∀ payload record, p.decode payload = .ok record ↔ payload = [] ∧ record = [] := by
  have bound : p.properties.length ≤ 16 := by
    rw [none]
    exact Nat.zero_le 16
  refine ⟨fun record => by rw [encode, none]; rfl, fun payload record => ?_⟩
  rw [decode_eq_ok bound]
  constructor
  · intro holds
    cases holds with
    | empty _ nothing => exact ⟨rfl, nothing⟩
    | flagged some _ => exact (some none).elim
  · rintro ⟨rfl, rfl⟩
    exact .empty none rfl

/-- The properties of every class of a description survive both round trips: records read back
without the bits that are false, and accepted payloads are written as they were but for truth values
of tables. -/
theorem round_trips {d : Description} {c : Class} (member : c ∈ d.classes)
    (resolved : d.propertyLayout c = .ok p) :
    (∀ record octets, TypedProperties p.types record → p.encode record = .ok octets →
        p.decode octets = .ok (record.map dropFalse)) ∧
      (∀ payload record, p.decode payload = .ok record →
        some (.bit false) ∉ record ∧ ∃ octets, p.encode record = .ok octets ∧
          (p.roles record).length = payload.length ∧ octets.length = payload.length ∧
          octets = normalize (p.roles record) payload ∧
          ∀ count, .flags count ∉ p.roles record) ∧
      (c.properties.length = 0 →
        (∀ record, p.encode record = .ok []) ∧
          ∀ payload record, p.decode payload = .ok record ↔ payload = [] ∧ record = []) := by
  have count := Description.length_of_propertyLayout resolved
  have bound : p.properties.length ≤ 16 := by
    rw [count]
    exact Nat.le_succ_of_le (d.bounded c member)
  refine ⟨fun _ _ => decode_eq_of_encode bound, fun _ _ => encode_eq_of_decode bound, fun none => ?_⟩
  rw [← count] at none
  exact empty_payload (List.eq_nil_of_length_eq_zero none)

end PropertyLayout

namespace BasicContent

/-- A class with properties of every shape. -/
def basic : Class :=
  [("content-type", "shortstr"), ("headers", "table"), ("redelivered", "bit"),
    ("persistent", "bit"), ("priority", "octet")].foldl
      (fun c (name, domain) => c.withProperty (.new name domain none)) (.new 60 "basic")

/-- A class without properties. -/
def tx : Class := .new 90 "tx"

def description : Description :=
  { Description.new ⟨0, 9, 1⟩ 5672 with classes := [basic, tx], bounded := by decide }

def layout : PropertyLayout where
  classId := 60
  name := "basic"
  properties := basic.properties.toList.zip [.shortstr, .table, .bit, .bit, .octet]

/-- A record with a bit that may be there and another one that is. -/
def record (redelivered : Option WireValue) : List (Option WireValue) :=
  [some (.shortstr [0x61]), some (.table [([0x6B], .bool true)]), redelivered, some (.bit true), none]

/-- The payload of a record with a truth value. -/
def payload (truth : UInt8) : Bytes :=
  [0xD0, 0, 1, 0x61, 0, 0, 0, 4, 1, 0x6B, 0x74, truth]

/-- A bit that is false is lost on the way, and so is a truth value other than one. -/
theorem properties_round_trip :
    layout.decode (payload 1) = .ok (record none) ∧
      layout.encode (record none) = .ok (payload 1) ∧
      (⟨90, "tx", []⟩ : PropertyLayout).encode [] = .ok [] := by
  have inside : basic ∈ description.classes := List.mem_cons_self
  have resolved : description.propertyLayout basic = .ok layout := rfl
  have outside : tx ∈ description.classes := List.mem_cons_of_mem _ List.mem_cons_self
  have resolved' : description.propertyLayout tx = .ok ⟨90, "tx", []⟩ := rfl
  have trips := PropertyLayout.round_trips inside resolved
  have typed : TypedProperties layout.types (record (some (.bit false))) :=
    .present rfl (.present rfl (.present rfl (.present rfl (.absent .nil))))
  have decoded : layout.decode (payload 9) = .ok (record none) := by
    with_unfolding_all rfl
  obtain ⟨-, octets, written, -, -, normal, -⟩ := trips.2.1 _ _ decoded
  have same : octets = payload 1 := by
    rw [normal]
    rfl
  exact ⟨trips.1 _ _ typed rfl, same ▸ written,
    ((PropertyLayout.round_trips outside resolved').2.2 rfl).1 []⟩

end BasicContent

end WireProtocol
