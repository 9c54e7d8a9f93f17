import WireProtocol.Proofs.Codec.Method
import WireProtocol.Proofs.Codec.Properties
import WireProtocol.Proofs.Payload.Stability

/-!
# Payloads that end where they have to

* `Read.Regular.value`, `Read.Regular.chunks`: values and chunks are read by regular steps, and so are
  properties, but for flags that are reserved (`Read.Stable.flagged`).
* `SelfDelimiting`: no accepted payload can be cut short or continued.
* `Description.payloads_are_selfDelimiting`: the payloads of methods and of properties are such.
-/

namespace WireProtocol

namespace Read

namespace Regular

theorem value (ty : WireType) : Regular (WireValue.read ty) := by
  cases ty with
  | bit => exact octet.map fun value => WireValue.bit (value.toNat.testBit 0)
  | octet => exact octet.map WireValue.octet
  | short => exact short.map WireValue.short
  | long => exact long.map WireValue.long
  | longlong => exact longlong.map WireValue.longlong
  | timestamp => exact longlong.map WireValue.timestamp
  | shortstr => exact (counted 1).map WireValue.shortstr
  | longstr => exact (counted 4).map WireValue.longstr
  | table => exact table.map WireValue.table

variable {α : Type}

theorem chunk (chunk : Chunk α) : Regular chunk.read := by
  cases chunk with
  | fixedWidth _ ty => exact (value ty).map fun v => [v]
  | variableWidth _ ty => exact (value ty).map fun v => [v]
  | bits members => exact octet.map fun o => (unpackBits members.length o).map WireValue.bit

theorem chunks (chunks : List (Chunk α)) : Regular (Chunk.readAll chunks) := by
  induction chunks with
  | nil => exact pure []
  | cons first rest ih => exact (chunk first).bind fun values => ih.map (values ++ ·)

theorem property (flags : UInt16) (index : Nat) (ty : WireType) :
    Regular (PropertyLayout.readProperty flags index ty) := by
  unfold PropertyLayout.readProperty
  split
  · exact pure none
  · split
    · exact pure (some (WireValue.bit true))
    · exact (value ty).map some

theorem properties (flags : UInt16) (index : Nat) (types : List WireType) :
    Regular (PropertyLayout.readPresent flags index types) := by
  induction types generalizing index with
  | nil => exact pure []
  | cons ty types ih =>
    rw [PropertyLayout.readPresent_cons]
    exact (property flags index ty).bind fun value => (ih (index + 1)).map (value :: ·)

end Regular

theorem Stable.flagged (p : PropertyLayout) : Stable p.readFlagged := by
  refine Regular.short.stable.bind fun flags => ?_
  split
  · exact (Regular.properties flags 0 p.types).stable
  · exact throw _

end Read

/-- A payload that the decoder accepts ends where it has to: whatever begins it or begins with it, and
is not the payload itself, is a framing error. -/
def SelfDelimiting {α : Type} (owner : String) (decode : Bytes → Except FrameError α) : Prop :=
  ∀ payload value, decode payload = .ok value →
    ∀ other, other ≠ payload → other <+: payload ∨ payload <+: other →
      decode other = .error (.framing owner other)

theorem Read.Stable.selfDelimiting {α : Type} {step : Read α} (h : Stable step) (owner : String) :
    SelfDelimiting owner fun payload => (step.toEnd.run (Reader.start owner payload)).1 := by
  intro payload value accepted other ne part
  rcases part with ⟨more, rfl⟩ | ⟨more, rfl⟩
  · have some : more ≠ [] := by
      rintro rfl
      exact ne (List.append_nil other).symm
    exact h.toEnd_of_longer (r := Reader.start owner other) some accepted
  · have some : more ≠ [] := by
      rintro rfl
      exact ne (List.append_nil payload)
    exact h.toEnd_of_shorter (r := Reader.start owner payload) some accepted

namespace MethodLayout

variable {m : MethodLayout} {payload : Bytes} {e : FrameError}

theorem decode_of_readRecord_eq_error
    (failed : (m.readRecord.run (Reader.start m.name payload)).1 = .error e) :
    m.decode payload = .error e := by
  rw [decode, failed]
  rfl

theorem selfDelimiting (m : MethodLayout) : SelfDelimiting m.name m.decode := by
  intro payload record accepted other ne part
  obtain ⟨record', read, -⟩ := Except.bind_eq_ok.mp accepted
  exact decode_of_readRecord_eq_error
    ((Read.Regular.chunks m.chunks).stable.selfDelimiting m.name payload record' read other ne part)

end MethodLayout

namespace PropertyLayout

theorem readRecord_eq_toEnd (p : PropertyLayout) :
    ∃ step, Read.Stable step ∧ p.readRecord = step.toEnd := by
  by_cases none : p.properties = []
  · refine ⟨pure [], (Read.Regular.pure []).stable, ?_⟩
    rw [readRecord, none]
    rfl
  · exact ⟨p.readFlagged, .flagged p, readRecord_of_nonempty none⟩

theorem selfDelimiting (p : PropertyLayout) : SelfDelimiting p.name p.decode := by
  obtain ⟨step, stable, same⟩ := p.readRecord_eq_toEnd
  have delimited := stable.selfDelimiting p.name
  rw [← same] at delimited
  exact delimited

end PropertyLayout

/-- An accepted payload of a method or of the properties of a class can neither be cut short nor
continued: whatever else begins it or begins with it is a framing error of the same owner. -/
theorem Description.payloads_are_selfDelimiting (d : Description) :
    (∀ method m, d.methodLayout method = .ok m →
      SelfDelimiting method.qualifiedName m.decode) ∧
      ∀ c p, d.propertyLayout c = .ok p → SelfDelimiting c.name p.decode := by
  constructor
  · intro method m resolved
    obtain ⟨name, -⟩ := methodLayout_eq_ok.mp resolved
    rw [← name]
    exact m.selfDelimiting
  · intro c p resolved
    obtain ⟨-, name, -⟩ := propertyLayout_eq_ok.mp resolved
    rw [← name]
    exact p.selfDelimiting

/-- A payload that has lost its last octet, and one with an octet too many. -/
theorem QueueDeclare.cut_payload_is_refused :
    QueueDeclare.layout.decode (QueueDeclare.payload [0x71] 1 1 1).dropLast =
        .error (.framing "queue.declare" (QueueDeclare.payload [0x71] 1 1 1).dropLast) ∧
      BasicContent.layout.decode (BasicContent.payload 1 ++ [0]) =
        .error (.framing "basic" (BasicContent.payload 1 ++ [0])) := by
  have resolved : (Description.new ⟨0, 9, 1⟩ 5672).methodLayout QueueDeclare.method =
      .ok QueueDeclare.layout := rfl
  have resolved' : BasicContent.description.propertyLayout BasicContent.basic =
      .ok BasicContent.layout := rfl
  have decoded : QueueDeclare.layout.decode (QueueDeclare.payload [0x71] 1 1 1) =
      .ok (QueueDeclare.record [0x71]) := by
    with_unfolding_all rfl
  have decoded' : BasicContent.layout.decode (BasicContent.payload 1) =
      .ok (BasicContent.record none) := by
    with_unfolding_all rfl
  exact ⟨(Description.payloads_are_selfDelimiting _).1 _ _ resolved _ _ decoded _ (by decide)
      (.inl (List.dropLast_prefix _)),
    (Description.payloads_are_selfDelimiting _).2 _ _ resolved' _ _ decoded' _ (by decide)
      (.inr (List.prefix_append _ _))⟩

end WireProtocol
