import WireProtocol.Proofs.Codec.Bits
import WireProtocol.Proofs.Codec.Value
import WireProtocol.Proofs.Layout.Chunk

/-!
# Chunks in payloads

* `Chunk.Form`, `Chunk.Forms`: the octets of a chunk, and those of several in a row.
* `Reads.chunks`: chunks are read exactly where octets of their forms come first.
* `Chunk.wire`, `Writes.chunks`: what is written for chunks.
* `Chunk.Forms.of_wires`, `Chunk.Forms.wires`: what is written for chunks is of their forms, and it is
  the normal form of all octets that are.
-/

namespace WireProtocol

namespace Chunk

/-- The octets of a chunk: those of its only value, or the one octet that its bits share. -/
def Form : Chunk WireValue → Bytes → Prop
  | fixedWidth value ty, octets => value.wireType = ty ∧ WireForm value octets
  | variableWidth value ty, octets => value.wireType = ty ∧ WireForm value octets
  | bits values, octets =>
    ∃ octet, octets = [octet] ∧ values = (unpackBits values.length octet).map .bit

/-- The octets of chunks in a row. -/
def Forms : List (Chunk WireValue) → Bytes → Prop
  | [], octets => octets = []
  | chunk :: chunks, octets =>
    ∃ front back, chunk.Form front ∧ Forms chunks back ∧ octets = front ++ back

/-- The values of a chunk are of the types that are expected of them. -/
def Typed (chunk : Chunk WireValue) : Prop :=
  ∀ value ty, (value, ty) ∈ chunk.members → value.wireType = ty

/-- What is written for a chunk. -/
def wire : Chunk WireValue → Except FrameError Bytes
  | fixedWidth value _ => value.wire
  | variableWidth value _ => value.wire
  | bits values => .ok [packBits (values.map WireValue.isSet)]

/-- What is written for chunks in a row. -/
def wires : List (Chunk WireValue) → Except FrameError Bytes
  | [] => .ok []
  | chunk :: chunks => do
    let front ← chunk.wire
    let back ← wires chunks
    return front ++ back

/-- The roles of the octets of a chunk. Of a shared octet only the places of the members count. -/
def roles : Chunk WireValue → List OctetRole
  | fixedWidth value _ => value.roles
  | variableWidth value _ => value.roles
  | bits values => [.flags values.length]

/-- Truth values are the values of bits. -/
theorem map_bit_map_isSet {values : List WireValue} (h : ∀ value ∈ values, value.wireType = .bit) :
    (values.map WireValue.isSet).map .bit = values := by
  rw [List.map_map]
  refine List.map_congr_left (fun value member => ?_) |>.trans (List.map_id values)
  have bit := h value member
  cases value with
  | bit => rfl
  | _ => cases bit

theorem map_isSet_map_bit (bits : List Bool) : (bits.map WireValue.bit).map WireValue.isSet = bits := by
  rw [List.map_map]
  exact List.map_id bits

/-- The members of typed chunks are their values with the types of these. -/
theorem members_eq_values {chunks : List (Chunk WireValue)} (typed : ∀ chunk ∈ chunks, chunk.Typed) :
    chunks.flatMap members =
      (chunks.flatMap values).map fun value => (value, value.wireType) := by
  rw [flatMap_values, List.map_map]
  refine ((List.map_congr_left fun pair listed => ?_).trans (List.map_id _)).symm
  obtain ⟨chunk, member, inside⟩ := List.mem_flatMap.mp listed
  exact Prod.ext rfl (typed chunk member pair.1 pair.2 inside)

end Chunk

open Chunk

namespace Reads

variable {α : Type}

/-- A chunk is read exactly where octets of its form come first. -/
theorem chunk {chunk : Chunk α} (sound : chunk.Sound) :
    Reads chunk.read fun values octets => ∃ chunk' : Chunk WireValue,
      chunk'.shape = chunk.shape ∧ chunk'.values = values ∧ chunk'.Form octets := by
  cases chunk with
  | fixedWidth _ ty =>
    refine ((value (WireType.isBit_eq_false_of_isInteger sound)).map fun v => [v]).congr fun _ _ => ?_
    constructor
    · rintro ⟨v, form, rfl⟩
      exact ⟨.fixedWidth v ty, rfl, rfl, form⟩
    · rintro ⟨⟨v, _⟩ | _ | _, same, rfl, form⟩ <;> cases same
      exact ⟨v, form, rfl⟩
  | variableWidth _ ty =>
    refine ((value sound.2).map fun v => [v]).congr fun _ _ => ?_
    constructor
    · rintro ⟨v, form, rfl⟩
      exact ⟨.variableWidth v ty, rfl, rfl, form⟩
    · rintro ⟨_ | ⟨v, _⟩ | _, same, rfl, form⟩ <;> cases same
      exact ⟨v, form, rfl⟩
  | bits members =>
    refine (octet.map fun o => (unpackBits members.length o).map WireValue.bit).congr fun _ _ => ?_
    constructor
    · rintro ⟨o, rfl, rfl⟩
      refine ⟨.bits ((unpackBits members.length o).map .bit), ?_, rfl, o, ?_, ?_⟩
      · exact shape_bits_eq_iff.mpr (by simp)
      · exact BigEndian.encode_octet o
      · simp
    · rintro ⟨_ | _ | values', same, rfl, form⟩
      · cases same
      · cases same
      · obtain ⟨o, rfl, all⟩ := form
        have count := shape_bits_eq_iff.mp same
        exact ⟨o, (BigEndian.encode_octet o).symm, by rw [← count, ← all]; rfl⟩

/-- Chunks are read exactly where octets of their forms come first. -/
theorem chunks {chunks : List (Chunk α)} (sound : ∀ chunk ∈ chunks, chunk.Sound) :
    Reads (readAll chunks) fun values octets => ∃ chunks' : List (Chunk WireValue),
      chunks'.map shape = chunks.map shape ∧ chunks'.flatMap Chunk.values = values ∧
        Forms chunks' octets := by
  induction chunks with
  | nil =>
    refine (pure []).congr fun values octets => ?_
    constructor
    · rintro ⟨rfl, rfl⟩
      exact ⟨[], rfl, rfl, rfl⟩
    · rintro ⟨chunks', same, rfl, form⟩
      cases List.map_eq_nil_iff.mp same
      exact ⟨rfl, form⟩
  | cons first rest ih =>
    have others := ih fun chunk member => sound chunk (List.mem_cons_of_mem _ member)
    refine ((chunk (sound first List.mem_cons_self)).bind fun values =>
      others.map (values ++ ·)).congr fun values octets => ?_
    constructor
    · rintro ⟨_, front, back, ⟨chunk', same, rfl, form⟩,
        ⟨_, ⟨chunks', same', rfl, forms⟩, rfl⟩, rfl⟩
      refine ⟨chunk' :: chunks', ?_, rfl, front, back, form, forms, rfl⟩
      rw [List.map_cons, List.map_cons, same, same']
    · rintro ⟨chunks', same, rfl, forms⟩
      cases chunks' with
      | nil => cases same
      | cons chunk' chunks' =>
        obtain ⟨front, back, form, forms, rfl⟩ := forms
        rw [List.map_cons, List.map_cons, List.cons.injEq] at same
        exact ⟨_, front, back, ⟨chunk', same.1, rfl, form⟩,
          ⟨_, ⟨chunks', same.2, rfl, forms⟩, rfl⟩, rfl⟩

end Reads

namespace Writes

/-- Writing a chunk appends what is written for it, or fails for the same reason. -/
theorem chunk (chunk : Chunk WireValue) :
    Writes chunk.write (chunk.wire.map fun octets => ((), octets)) := by
  cases chunk with
  | fixedWidth v _ => exact value v
  | variableWidth v _ => exact value v
  | bits values =>
    have written := number 1 (packBits (values.map WireValue.isSet)).toNat
    rwa [BigEndian.encode_octet] at written

/-- Writing chunks appends what is written for them, or fails for the same reason. -/
theorem chunks (chunks : List (Chunk WireValue)) :
    Writes (writeAll chunks) ((wires chunks).map fun octets => ((), octets)) := by
  induction chunks with
  | nil => exact pure ()
  | cons first rest ih =>
    have written := (chunk first).bind fun _ => ih
    have same : ((wires (first :: rest)).map fun octets => ((), octets)) =
        (first.wire.map fun octets => ((), octets)) >>= fun front =>
          ((wires rest).map fun octets => ((), octets)) >>= fun back =>
            .ok (back.1, front.2 ++ back.2) := by
      rw [wires]
      cases first.wire <;> cases wires rest <;> rfl
    rw [same]
    exact written

end Writes

namespace Chunk

namespace Form

variable {chunk : Chunk WireValue} {octets : Bytes}

/-- What is written for a chunk is of its form. -/
theorem of_wire (h : chunk.wire = .ok octets) (sound : chunk.Sound) (typed : chunk.Typed) :
    chunk.Form octets := by
  cases chunk with
  | fixedWidth v ty =>
    have type := typed v ty List.mem_cons_self
    exact ⟨type, WireForm.of_wire h (type ▸ WireType.isBit_eq_false_of_isInteger sound)⟩
  | variableWidth v ty =>
    have type := typed v ty List.mem_cons_self
    exact ⟨type, WireForm.of_wire h (type ▸ sound.2)⟩
  | bits values =>
    cases h
    refine ⟨_, rfl, ?_⟩
    have back := @unpackBits_packBits (values.map WireValue.isSet) (by simpa using sound.2)
    rw [List.length_map] at back
    rw [back, map_bit_map_isSet]
    exact fun v member => typed v .bit (List.mem_map.mpr ⟨v, member, rfl⟩)

/-- The values of octets are of the types that are expected of them. -/
theorem typed (h : chunk.Form octets) : chunk.Typed := by
  intro v ty member
  cases chunk with
  | fixedWidth | variableWidth =>
    cases List.mem_singleton.mp member
    exact h.1
  | bits values =>
    obtain ⟨o, rfl, all⟩ := h
    obtain ⟨v', member', same⟩ := List.mem_map.mp member
    cases same
    rw [all] at member'
    obtain ⟨b, -, rfl⟩ := List.mem_map.mp member'
    rfl

theorem length_roles (h : chunk.Form octets) : chunk.roles.length = octets.length := by
  cases chunk with
  | fixedWidth | variableWidth => exact h.2.length_roles
  | bits values =>
    obtain ⟨o, rfl, -⟩ := h
    rfl

/-- What is written for a chunk is the normal form of all octets of its form. -/
theorem wire (h : chunk.Form octets) (sound : chunk.Sound) :
    chunk.wire = .ok (normalize chunk.roles octets) := by
  cases chunk with
  | fixedWidth | variableWidth => exact h.2.wire
  | bits values =>
    obtain ⟨o, rfl, all⟩ := h
    have set : values.map WireValue.isSet = unpackBits values.length o := by
      rw [all, map_isSet_map_bit, List.length_map, length_unpackBits]
    rw [Chunk.wire, set, packBits_unpackBits sound.2]
    rfl

end Form

namespace Forms

variable {chunks : List (Chunk WireValue)} {octets : Bytes}

/-- What is written for chunks is of their forms. -/
theorem of_wires (h : wires chunks = .ok octets) (sound : ∀ chunk ∈ chunks, chunk.Sound)
    (typed : ∀ chunk ∈ chunks, chunk.Typed) : Forms chunks octets := by
  induction chunks generalizing octets with
  | nil =>
    cases h
    exact rfl
  | cons first rest ih =>
    obtain ⟨front, written, h⟩ := Except.bind_eq_ok.mp h
    obtain ⟨back, written', same⟩ := Except.bind_eq_ok.mp h
    cases same
    rw [List.forall_mem_cons] at sound typed
    exact ⟨front, back, Form.of_wire written sound.1 typed.1, ih written' sound.2 typed.2, rfl⟩

theorem typed (h : Forms chunks octets) : ∀ chunk ∈ chunks, chunk.Typed := by
  induction chunks generalizing octets with
  | nil => simp
  | cons first rest ih =>
    obtain ⟨front, back, form, forms, rfl⟩ := h
    exact List.forall_mem_cons.mpr ⟨form.typed, ih forms⟩

/-- Each octet of chunks has a role. -/
theorem length_roles (h : Forms chunks octets) : (chunks.flatMap roles).length = octets.length := by
  induction chunks generalizing octets with
  | nil => rw [show octets = [] from h]; rfl
  | cons first rest ih =>
    obtain ⟨front, back, form, forms, rfl⟩ := h
    rw [List.flatMap_cons, List.length_append, List.length_append, form.length_roles, ih forms]

/-- What is written for chunks is the normal form of all octets of their forms. -/
theorem wires (h : Forms chunks octets) (sound : ∀ chunk ∈ chunks, chunk.Sound) :
    wires chunks = .ok (normalize (chunks.flatMap roles) octets) := by
  induction chunks generalizing octets with
  | nil => rw [show octets = [] from h]; rfl
  | cons first rest ih =>
    obtain ⟨front, back, form, forms, rfl⟩ := h
    rw [List.forall_mem_cons] at sound
    rw [Chunk.wires, form.wire sound.1, ih forms sound.2, List.flatMap_cons,
      normalize_append form.length_roles]
    rfl

end Forms

/-! ## Chunks that cannot be written -/

section

variable {chunk : Chunk WireValue} {chunks : List (Chunk WireValue)} {e : FrameError}

/-- A chunk can be written when each of its values can. -/
theorem exists_wire_eq_ok (typed : chunk.Typed) :
    (∃ octets, chunk.wire = .ok octets) ↔ ∀ value ∈ chunk.values, ∃ octets, value.wire = .ok octets := by
  cases chunk with
  | fixedWidth | variableWidth => simp [wire, values]
  | bits values =>
    refine iff_of_true ⟨_, rfl⟩ fun value member => ?_
    have bit := typed value .bit (List.mem_map.mpr ⟨value, member, rfl⟩)
    cases value <;> cases bit
    exact ⟨_, rfl⟩

/-- Chunks can be written when each of their values can. -/
theorem exists_wires_eq_ok (typed : ∀ chunk ∈ chunks, chunk.Typed) :
    (∃ octets, wires chunks = .ok octets) ↔
      ∀ value ∈ chunks.flatMap values, ∃ octets, value.wire = .ok octets := by
  induction chunks with
  | nil => exact iff_of_true ⟨[], rfl⟩ (fun _ => nofun)
  | cons first rest ih =>
    rw [List.forall_mem_cons] at typed
    rw [List.flatMap_cons, List.forall_mem_append, ← exists_wire_eq_ok typed.1, ← ih typed.2]
    constructor
    · rintro ⟨octets, written⟩
      obtain ⟨front, written, h⟩ := Except.bind_eq_ok.mp written
      obtain ⟨back, written', -⟩ := Except.bind_eq_ok.mp h
      exact ⟨⟨front, written⟩, back, written'⟩
    · rintro ⟨⟨front, written⟩, back, written'⟩
      exact ⟨front ++ back,
        Except.bind_eq_ok.mpr ⟨front, written, Except.bind_eq_ok.mpr ⟨back, written', rfl⟩⟩⟩

/-- Chunks fail for the reason of one of their values. -/
theorem wires_eq_error (h : wires chunks = .error e) :
    ∃ value ∈ chunks.flatMap values, value.wire = .error e := by
  induction chunks with
  | nil => cases h
  | cons first rest ih =>
    simp only [List.flatMap_cons, List.mem_append]
    rw [wires] at h
    cases front : first.wire with
    | error e' =>
      rw [front] at h
      cases h
      cases first with
      | fixedWidth value | variableWidth value => exact ⟨value, .inl List.mem_cons_self, front⟩
      | bits => cases front
    | ok octets =>
      cases back : wires rest with
      | error e' =>
        rw [front, back] at h
        cases h
        obtain ⟨value, member, failed⟩ := ih back
        exact ⟨value, .inr member, failed⟩
      | ok octets' =>
        rw [front, back] at h
        cases h

end

end Chunk

end WireProtocol
