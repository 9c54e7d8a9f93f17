import WireProtocol.Proofs.Bytes.Utf8
import WireProtocol.Proofs.Codec.Chunk

/-!
# Records of methods and their payloads

* `MethodLayout.Holds`: the payload holds the record.
* `MethodLayout.readRecord_eq_ok`, `MethodLayout.decode_eq_ok`: the payloads that are accepted.
* `MethodLayout.encode_eq_ok`: the payload that is written holds the record.
* `MethodLayout.decode_of_encode`: a record that has been written reads back as itself, unless its
  short strings are checked and one is no text.
* `MethodLayout.encode_of_decode`: a payload that has been read is written in its normal form.
-/

namespace WireProtocol

/-- Every short string among the values is a text. -/
def Textual (record : List WireValue) : Prop :=
  ∀ bytes, .shortstr bytes ∈ record → Utf8.WellFormed bytes

theorem textual_cons {value : WireValue} {record : List WireValue} :
    Textual (value :: record) ↔
      (∀ bytes, value = .shortstr bytes → Utf8.WellFormed bytes) ∧ Textual record := by
  constructor
  · intro h
    exact ⟨fun bytes same => h bytes (same ▸ List.mem_cons_self),
      fun bytes member => h bytes (List.mem_cons_of_mem _ member)⟩
  · rintro ⟨first, rest⟩ bytes member
    rcases List.mem_cons.mp member with same | tail
    · exact first bytes same.symm
    · exact rest bytes tail

/-- The check of the short strings names the owner alone, whichever string is at fault. -/
theorem checkTexts_cases (name : String) (record : List WireValue) :
    Textual record ∧ checkTexts name record = .ok () ∨
      ¬ Textual record ∧ checkTexts name record = .error (.invalidUtf8 name) := by
  induction record with
  | nil => exact .inl ⟨fun _ member => (List.not_mem_nil member).elim, rfl⟩
  | cons value record ih =>
    cases value with
    | shortstr bytes =>
      rw [checkTexts, assertUtf8, textual_cons]
      by_cases first : Utf8.isWellFormed bytes = true
      · have text := Utf8.isWellFormed_iff_wellFormed.mp first
        rw [if_pos first, and_iff_right (fun _ same => by cases same; exact text)]
        exact ih
      · refine .inr ⟨fun h => first ?_, ?_⟩
        · exact Utf8.isWellFormed_iff_wellFormed.mpr (h.1 bytes rfl)
        · rw [if_neg first]
          rfl
    | _ =>
      rw [checkTexts, textual_cons, and_iff_right (fun _ => nofun)]
      · exact ih
      · nofun

namespace MethodLayout

open Chunk

variable {m : MethodLayout} {record : List WireValue} {payload octets : Bytes}

/-- The payload holds the record: its values are of the types of the arguments, and the octets are
those of its chunks. -/
structure Holds (m : MethodLayout) (record : List WireValue) (payload : Bytes) : Prop where
  typed : record.map WireValue.wireType = m.types
  forms : Forms (m.recordChunks record) payload

/-- The roles of the octets of a payload that holds the record. -/
def roles (m : MethodLayout) (record : List WireValue) : List OctetRole :=
  (m.recordChunks record).flatMap Chunk.roles

/-- The chunks of a record depend on its values alone. -/
theorem recordChunks_eq (typed : record.map WireValue.wireType = m.types) :
    m.recordChunks record = coalesce (record.map fun value => (value, value.wireType)) := by
  have pairs {arguments : List (Field × WireType)} {record : List WireValue}
      (typed : record.map WireValue.wireType = arguments.map (·.2)) :
      ((arguments.zip record).map fun pair => (pair.2, pair.1.2)) =
        record.map fun value => (value, value.wireType) := by
    induction arguments generalizing record with
    | nil =>
      cases List.map_eq_nil_iff.mp typed
      rfl
    | cons argument arguments ih =>
      cases record with
      | nil => cases typed
      | cons value record =>
        obtain ⟨first, rest⟩ := List.cons.inj typed
        rw [List.zip_cons_cons, List.map_cons, List.map_cons, ih rest]
        exact congrArg (fun ty => (value, ty) :: _) first.symm
  exact congrArg coalesce (pairs typed)

theorem sound_recordChunks (m : MethodLayout) (record : List WireValue) :
    ∀ chunk ∈ m.recordChunks record, chunk.Sound :=
  coalesce_sound _

theorem typed_recordChunks (typed : record.map WireValue.wireType = m.types) :
    ∀ chunk ∈ m.recordChunks record, chunk.Typed := by
  intro chunk member value ty inside
  rw [recordChunks_eq typed] at member
  have listed : (value, ty) ∈ record.map fun value => (value, value.wireType) := by
    rw [← coalesce_members (record.map _)]
    exact List.mem_flatMap.mpr ⟨chunk, member, inside⟩
  obtain ⟨_, -, same⟩ := List.mem_map.mp listed
  cases same
  rfl

theorem recordChunks_values (typed : record.map WireValue.wireType = m.types) :
    (m.recordChunks record).flatMap Chunk.values = record := by
  rw [recordChunks_eq typed, flatMap_values, coalesce_members, List.map_map]
  exact List.map_id record

/-- A payload is read as the one record that it holds. -/
theorem readRecord_eq_ok {name : String} :
    (m.readRecord.run (Reader.start name payload)).1 = .ok record ↔ m.Holds record payload := by
  have sound : ∀ chunk ∈ m.chunks, chunk.Sound := coalesce_sound m.arguments
  rw [readRecord, (Reads.chunks sound).whole]
  constructor
  · rintro ⟨chunks, same, values, forms⟩
    -- Chunks of the shape of the layout are the chunks of the values in them.
    have listed : chunks.flatMap members = record.map fun value => (value, value.wireType) := by
      rw [members_eq_values forms.typed, values]
    have typed : record.map WireValue.wireType = m.types := by
      have types := types_of_shape same
      rw [listed, List.map_map] at types
      exact types
    refine ⟨typed, ?_⟩
    rwa [recordChunks_eq typed, ← listed, ← eq_coalesce same]
  · rintro ⟨typed, forms⟩
    refine ⟨m.recordChunks record, ?_, recordChunks_values typed, forms⟩
    rw [recordChunks_eq typed]
    apply coalesce_shape
    rw [List.map_map]
    exact typed

/-- What is written for a record is what is written for its chunks. -/
theorem encode_eq (m : MethodLayout) (record : List WireValue) :
    m.encode record = wires (m.recordChunks record) := by
  unfold encode
  rcases (Writes.chunks (m.recordChunks record)).run_empty with
    ⟨⟨⟩, octets, outcome, ran⟩ | ⟨e, w, outcome, ran⟩
  · obtain ⟨octets', written, same⟩ := Except.map_eq_ok.mp outcome
    cases same
    rw [ran, written]
  · rw [ran, Except.map_eq_error.mp outcome]

/-- A record can be written when each of its values can. -/
theorem exists_encode_eq_ok (typed : record.map WireValue.wireType = m.types) :
    (∃ octets, m.encode record = .ok octets) ↔
      ∀ value ∈ record, ∃ octets, value.wire = .ok octets := by
  rw [encode_eq, exists_wires_eq_ok (typed_recordChunks typed), recordChunks_values typed]

/-- A record is refused for the reason of one of its values. -/
theorem encode_eq_error {e : FrameError} (typed : record.map WireValue.wireType = m.types)
    (h : m.encode record = .error e) : ∃ value ∈ record, value.wire = .error e := by
  rw [encode_eq] at h
  obtain ⟨value, member, failed⟩ := wires_eq_error h
  rw [recordChunks_values typed] at member
  exact ⟨value, member, failed⟩

/-- What is written for a record of the layout holds it. -/
theorem holds_of_encode (typed : record.map WireValue.wireType = m.types)
    (encoded : m.encode record = .ok octets) : m.Holds record octets where
  typed := typed
  forms := by
    rw [encode_eq] at encoded
    exact Forms.of_wires encoded (sound_recordChunks m record) (typed_recordChunks typed)

namespace Holds

/-- Each octet of a payload has a role. -/
theorem length_roles (h : m.Holds record payload) : (m.roles record).length = payload.length :=
  h.forms.length_roles

/-- What is written for a record is the normal form of every payload that holds it. -/
theorem encode (h : m.Holds record payload) :
    m.encode record = .ok (normalize (m.roles record) payload) := by
  rw [encode_eq]
  exact h.forms.wires (sound_recordChunks m record)

/-- What is left of decoding once the payload is known to hold the record is the check of the
texts. -/
theorem decode (h : m.Holds record payload) :
    m.decode payload =
      (if m.hasContent then .ok () else checkTexts m.name record) >>= fun _ => .ok record := by
  unfold MethodLayout.decode
  rw [readRecord_eq_ok.mpr h]
  cases m.hasContent <;> rfl

theorem decode_eq_ok (h : m.Holds record payload) (texts : m.hasContent = true ∨ Textual record) :
    m.decode payload = .ok record := by
  rw [h.decode]
  split
  · rfl
  · rename_i unchecked
    have textual := texts.resolve_left unchecked
    rcases checkTexts_cases m.name record with ⟨-, passed⟩ | ⟨invalid, -⟩
    · rw [passed]
      rfl
    · exact (invalid textual).elim

theorem decode_eq_error (h : m.Holds record payload)
    (texts : ¬ (m.hasContent = true ∨ Textual record)) :
    m.decode payload = .error (.invalidUtf8 m.name) := by
  obtain ⟨checked, invalid⟩ := not_or.mp texts
  rw [h.decode, if_neg checked]
  rcases checkTexts_cases m.name record with ⟨textual, -⟩ | ⟨-, failed⟩
  · exact (invalid textual).elim
  · rw [failed]
    rfl

end Holds

/-- A payload is accepted when it holds a record whose short strings are texts, as far as they are
checked. -/
theorem decode_eq_ok :
    m.decode payload = .ok record ↔
      m.Holds record payload ∧ (m.hasContent = true ∨ Textual record) := by
  constructor
  · intro accepted
    obtain ⟨record', read, checked⟩ := Except.bind_eq_ok.mp accepted
    have holds := readRecord_eq_ok.mp read
    by_cases texts : m.hasContent = true ∨ Textual record'
    · have same := (holds.decode_eq_ok texts).symm.trans accepted
      cases same
      exact ⟨holds, texts⟩
    · have failed := (holds.decode_eq_error texts).symm.trans accepted
      cases failed
  · rintro ⟨holds, texts⟩
    exact holds.decode_eq_ok texts

end MethodLayout

/-- The layout of a method is known by the name of the method and carries its flags. -/
theorem Description.methodLayout_eq_ok {d : Description} {method : Method} {m : MethodLayout} :
    d.methodLayout method = .ok m ↔
      m.name = method.qualifiedName ∧ m.hasContent = method.hasContent ∧
        m.synchronous = method.synchronous ∧ d.classify method.arguments = .ok m.arguments := by
  rw [methodLayout, Except.bind_eq_ok]
  constructor
  · rintro ⟨arguments, classified, same⟩
    cases same
    exact ⟨rfl, rfl, rfl, classified⟩
  · obtain ⟨name, hasContent, synchronous, arguments⟩ := m
    rintro ⟨rfl, rfl, rfl, classified⟩
    exact ⟨arguments, classified, rfl⟩

namespace QueueDeclare

/-- A method with arguments of every shape: the bits in the middle share an octet, and the last one
has an octet of its own. -/
def method : Method :=
  let arguments :=
    [("ticket", "short"), ("queue", "shortstr"), ("passive", "bit"), ("durable", "bit"),
      ("arguments", "table"), ("nowait", "bit")]
  ((Method.new 10 "declare").withSynchronous true |> arguments.foldl
    fun method (name, domain) => method.withArgument (.new name domain none)).attach 50 "queue"

def layout : MethodLayout where
  name := "queue.declare"
  hasContent := false
  synchronous := true
  arguments := method.arguments.toList.zip [.short, .shortstr, .bit, .bit, .table, .bit]

/-- A record for a queue of that name. Its table holds an array with another table. -/
def record (queue : Bytes) : List WireValue :=
  [.short 7, .shortstr queue, .bit true, .bit false,
    .table [([0x6B], .array [.bool true, .table [([], .float64 0x7FF8000000000001)]])], .bit true]

/-- The payload of a record with two flags, a truth value and a flag. -/
def payload (queue : Bytes) (flags truth flag : UInt8) : Bytes :=
  [0, 7, UInt8.ofNat queue.length] ++ queue ++ [flags, 0, 0, 0, 24, 1, 0x6B, 0x41, 0, 0, 0, 17,
    0x74, truth, 0x46, 0, 0, 0, 10, 0, 0x64, 0x7F, 0xF8, 0, 0, 0, 0, 0, 1, flag]

end QueueDeclare

/-! ## Round trips -/

section

variable {d : Description} {method : Method} {m : MethodLayout} {record : List WireValue}
  {octets : Bytes}

/-- A record that has been written reads back as itself when its method has content or its short
strings are texts. In every other case it is refused under the name of the method. -/
theorem MethodLayout.decode_of_encode (resolved : d.methodLayout method = .ok m)
    (typed : record.map WireValue.wireType = m.types) (encoded : m.encode record = .ok octets) :
    (method.hasContent = true ∨ Textual record → m.decode octets = .ok record) ∧
      (¬ (method.hasContent = true ∨ Textual record) →
        m.decode octets = .error (.invalidUtf8 method.qualifiedName)) := by
  have holds := holds_of_encode typed encoded
  obtain ⟨name, content, -, -⟩ := Description.methodLayout_eq_ok.mp resolved
  rw [← name, ← content]
  exact ⟨holds.decode_eq_ok, holds.decode_eq_error⟩

end

namespace QueueDeclare

/-- A queue named by a text, and one named by half of a character. -/
theorem records_read_back :
    layout.decode (payload [0x71, 0xC3, 0xA9] 1 1 1) = .ok (record [0x71, 0xC3, 0xA9]) ∧
      layout.decode (payload [0x71, 0xC3] 1 1 1) = .error (.invalidUtf8 "queue.declare") := by
  have resolved : (Description.new ⟨0, 9, 1⟩ 5672).methodLayout method = .ok layout := rfl
  have named : layout.encode (record [0x71, 0xC3, 0xA9]) =
      .ok (payload [0x71, 0xC3, 0xA9] 1 1 1) := rfl
  have broken : layout.encode (record [0x71, 0xC3]) = .ok (payload [0x71, 0xC3] 1 1 1) := rfl
  refine ⟨(MethodLayout.decode_of_encode resolved rfl named).1 (.inr ?_),
    (MethodLayout.decode_of_encode resolved rfl broken).2 ?_⟩
  · intro bytes member
    have same : bytes = [0x71, 0xC3, 0xA9] := by simpa [record] using member
    exact ⟨"qé", same⟩
  · rintro (content | texts)
    · cases content
    · have text := texts [0x71, 0xC3] (by simp [record])
      rw [← Utf8.isWellFormed_iff_wellFormed] at text
      revert text
      decide

end QueueDeclare

/-- A payload that has been read is written in its normal form: the places of shared octets past the
last bit are cleared, the truth values of tables become zero or one, and every other octet stays. It
is written as it has been read when there is nothing to be changed. -/
theorem MethodLayout.encode_of_decode {m : MethodLayout} {record : List WireValue} {payload : Bytes}
    (decoded : m.decode payload = .ok record) :
    ∃ octets, m.encode record = .ok octets ∧
      (m.roles record).length = payload.length ∧ octets.length = payload.length ∧
      m.decode octets = .ok record ∧
      octets = normalize (m.roles record) payload ∧
      (octets = payload ↔
        ∀ role octet, (role, octet) ∈ (m.roles record).zip payload → role.IsNormal octet) := by
  obtain ⟨holds, texts⟩ := decode_eq_ok.mp decoded
  have roles := holds.length_roles
  have written := holds.encode
  have again := holds_of_encode holds.typed written
  exact ⟨_, written, roles, length_normalize roles, again.decode_eq_ok texts, rfl,
    normalize_eq_self_iff roles⟩

namespace QueueDeclare

/-- Flags past the last bit and a truth value other than one are lost, and nothing else is. -/
theorem payload_normalizes :
    layout.decode (payload [0x71] 0xFD 9 0x81) = .ok (record [0x71]) ∧
      layout.encode (record [0x71]) = .ok (payload [0x71] 1 1 1) ∧
      layout.decode (payload [0x71] 1 1 1) = .ok (record [0x71]) := by
  have decoded : layout.decode (payload [0x71] 0xFD 9 0x81) = .ok (record [0x71]) := by
    with_unfolding_all rfl
  obtain ⟨octets, written, -, -, again, normal, -⟩ := MethodLayout.encode_of_decode decoded
  have same : octets = payload [0x71] 1 1 1 := by
    rw [normal]
    rfl
  exact ⟨decoded, same ▸ written, same ▸ again⟩

end QueueDeclare

end WireProtocol
