import WireProtocol.Proofs.Codec.Delimitation

/-!
# The check of short strings

* `MethodLayout.decode_of_content`, `MethodLayout.decode_of_plain`: with content a record is what has
  been read, and without it the short strings of the record are checked besides.
* `MethodLayout.ne_invalidUtf8`: reading itself never fails for a short string.
* `Method.SameButContent`: methods that differ in whether they announce content.
* `Method.SameButContent.lifts_text_check`: what content changes of what is accepted.
-/

namespace WireProtocol

namespace MethodLayout

variable {m : MethodLayout} {payload : Bytes}

/-- With content a record is what has been read. -/
theorem decode_of_content (content : m.hasContent = true) :
    m.decode payload = (m.readRecord.run (Reader.start m.name payload)).1 := by
  unfold decode
  rw [content]
  cases (m.readRecord.run (Reader.start m.name payload)).1 <;> rfl

/-- Without content the short strings of a record are checked once it has been read. -/
theorem decode_of_plain (plain : m.hasContent = false) :
    m.decode payload = (m.readRecord.run (Reader.start m.name payload)).1 >>= fun record =>
      checkTexts m.name record >>= fun _ => .ok record := by
  unfold decode
  rw [plain]
  rfl

/-- Reading fails because of the payload as a whole, whatever its short strings hold. -/
theorem ne_invalidUtf8 {name owner : String} :
    (m.readRecord.run (Reader.start name payload)).1 ≠ .error (.invalidUtf8 owner) := by
  intro failed
  rcases (Read.Regular.chunks m.chunks).blames_toEnd failed with framing | ⟨source, table⟩
  · cases framing
  · cases table

end MethodLayout

namespace Method

/-- Methods of one name and with the same arguments, of which only the first announces content. -/
structure SameButContent (carrying plain : Method) : Prop where
  name : carrying.qualifiedName = plain.qualifiedName
  arguments : carrying.arguments = plain.arguments
  content : carrying.hasContent = true
  without : plain.hasContent = false

namespace SameButContent

variable {d : Description} {carrying plain : Method} {m m' : MethodLayout} {payload : Bytes}

/-- The payloads of both are read alike. -/
theorem readRecord_eq (same : SameButContent carrying plain)
    (resolved : d.methodLayout carrying = .ok m) (resolved' : d.methodLayout plain = .ok m') :
    m.readRecord = m'.readRecord := by
  obtain ⟨-, -, -, classified⟩ := Description.methodLayout_eq_ok.mp resolved
  obtain ⟨-, -, -, classified'⟩ := Description.methodLayout_eq_ok.mp resolved'
  rw [same.arguments, classified'] at classified
  have arguments : m'.arguments = m.arguments := Except.ok.inj classified
  rw [MethodLayout.readRecord, MethodLayout.readRecord, MethodLayout.chunks, MethodLayout.chunks,
    arguments]

/-- Without content the short strings are checked of what is accepted with content. -/
theorem decode_eq (same : SameButContent carrying plain)
    (resolved : d.methodLayout carrying = .ok m) (resolved' : d.methodLayout plain = .ok m') :
    m'.decode payload = m.decode payload >>= fun record =>
      checkTexts plain.qualifiedName record >>= fun _ => .ok record := by
  obtain ⟨name, content, -⟩ := Description.methodLayout_eq_ok.mp resolved
  obtain ⟨name', without, -⟩ := Description.methodLayout_eq_ok.mp resolved'
  rw [MethodLayout.decode_of_content (content.trans same.content),
    MethodLayout.decode_of_plain (without.trans same.without), same.readRecord_eq resolved resolved',
    name, name', same.name]

/-- What is refused with content is refused for the same reason without. -/
theorem decode_of_error {e : FrameError} (same : SameButContent carrying plain)
    (resolved : d.methodLayout carrying = .ok m) (resolved' : d.methodLayout plain = .ok m')
    (refused : m.decode payload = .error e) : m'.decode payload = .error e := by
  rw [same.decode_eq resolved resolved', refused]
  rfl

/-- What is accepted with content is refused without it when a short string is no text, and is
accepted as the same record otherwise. -/
theorem decode_of_ok {record : List WireValue} (same : SameButContent carrying plain)
    (resolved : d.methodLayout carrying = .ok m) (resolved' : d.methodLayout plain = .ok m')
    (accepted : m.decode payload = .ok record) :
    Textual record ∧ m'.decode payload = .ok record ∨
      ¬ Textual record ∧ m'.decode payload = .error (.invalidUtf8 plain.qualifiedName) := by
  have checked : m'.decode payload =
      checkTexts plain.qualifiedName record >>= fun _ => .ok record := by
    rw [same.decode_eq resolved resolved', accepted]
    rfl
  rw [checked]
  rcases checkTexts_cases plain.qualifiedName record with ⟨texts, passed⟩ | ⟨broken, failed⟩
  · rw [passed]
    exact .inl ⟨texts, rfl⟩
  · rw [failed]
    exact .inr ⟨broken, rfl⟩

/-- With content no payload is refused for its short strings. -/
theorem ne_invalidUtf8 {owner : String} (same : SameButContent carrying plain)
    (resolved : d.methodLayout carrying = .ok m) :
    m.decode payload ≠ .error (.invalidUtf8 owner) := by
  obtain ⟨-, content, -⟩ := Description.methodLayout_eq_ok.mp resolved
  rw [MethodLayout.decode_of_content (content.trans same.content)]
  exact MethodLayout.ne_invalidUtf8

/-- A payload that is refused for its short strings holds a record, one string of which is no text. -/
theorem of_invalidUtf8 {owner : String} (same : SameButContent carrying plain)
    (resolved : d.methodLayout carrying = .ok m) (resolved' : d.methodLayout plain = .ok m')
    (refused : m'.decode payload = .error (.invalidUtf8 owner)) :
    owner = plain.qualifiedName ∧
      ∃ record, m.decode payload = .ok record ∧ m'.Holds record payload ∧ ¬ Textual record := by
  rcases accepted : m.decode payload with e | record
  · -- With content the payload would have been refused for the same reason.
    cases (same.decode_of_error resolved resolved' accepted).symm.trans refused
    exact (same.ne_invalidUtf8 resolved accepted).elim
  · rcases same.decode_of_ok resolved resolved' accepted with ⟨-, decoded⟩ | ⟨broken, failed⟩
    · cases decoded.symm.trans refused
    · cases failed.symm.trans refused
      have holds : m'.Holds record payload := by
        obtain ⟨-, content, -⟩ := Description.methodLayout_eq_ok.mp resolved
        rw [MethodLayout.decode_of_content (content.trans same.content),
          same.readRecord_eq resolved resolved'] at accepted
        exact MethodLayout.readRecord_eq_ok.mp accepted
      exact ⟨rfl, record, rfl, holds, broken⟩

/-- Content lifts the check of the short strings and changes nothing else. What is refused with
content is refused for the same reason without it; what is accepted is accepted as the same record
without it, or is refused under the name of the method because a short string of the record is no
text. No other payload is refused for that reason. -/
theorem lifts_text_check (same : SameButContent carrying plain)
    (resolved : d.methodLayout carrying = .ok m) (resolved' : d.methodLayout plain = .ok m')
    (payload : Bytes) :
    (∀ e, m.decode payload = .error e → m'.decode payload = .error e) ∧
      (∀ record, m.decode payload = .ok record →
        (Textual record → m'.decode payload = .ok record) ∧
          (¬ Textual record →
            m'.decode payload = .error (.invalidUtf8 plain.qualifiedName))) ∧
      (∀ owner, m.decode payload ≠ .error (.invalidUtf8 owner)) ∧
      ∀ owner, m'.decode payload = .error (.invalidUtf8 owner) →
        owner = plain.qualifiedName ∧
          ∃ record, m.decode payload = .ok record ∧ m'.Holds record payload ∧ ¬ Textual record := by
  refine ⟨fun e => same.decode_of_error resolved resolved', fun record accepted => ?_,
    fun owner => same.ne_invalidUtf8 resolved, fun owner => same.of_invalidUtf8 resolved resolved'⟩
  rcases same.decode_of_ok resolved resolved' accepted with ⟨texts, decoded⟩ | ⟨broken, failed⟩
  · exact ⟨fun _ => decoded, fun broken => (broken texts).elim⟩
  · exact ⟨fun texts => (broken texts).elim, fun _ => failed⟩

end SameButContent

end Method

/-- A queue named by half of a character is refused without content, and a payload that has lost its
last octet is refused with content and without it. -/
theorem QueueDeclare.only_the_name_is_lifted :
    QueueDeclare.layout.decode (QueueDeclare.payload [0x71, 0xC3] 1 1 1) =
        .error (.invalidUtf8 "queue.declare") ∧
      QueueDeclare.layout.decode (QueueDeclare.payload [0x71, 0xC3] 1 1 1).dropLast =
        .error (.framing "queue.declare" (QueueDeclare.payload [0x71, 0xC3] 1 1 1).dropLast) := by
  have same : Method.SameButContent (QueueDeclare.method.withContent true) QueueDeclare.method :=
    ⟨rfl, rfl, rfl, rfl⟩
  have resolved : (Description.new ⟨0, 9, 1⟩ 5672).methodLayout
      (QueueDeclare.method.withContent true) = .ok { QueueDeclare.layout with hasContent := true } :=
    rfl
  have resolved' : (Description.new ⟨0, 9, 1⟩ 5672).methodLayout QueueDeclare.method =
      .ok QueueDeclare.layout := rfl
  have lifted := same.lifts_text_check resolved resolved'
  have accepted : { QueueDeclare.layout with hasContent := true }.decode
      (QueueDeclare.payload [0x71, 0xC3] 1 1 1) = .ok (QueueDeclare.record [0x71, 0xC3]) := by
    with_unfolding_all rfl
  have refused : { QueueDeclare.layout with hasContent := true }.decode
      (QueueDeclare.payload [0x71, 0xC3] 1 1 1).dropLast =
        .error (.framing "queue.declare" (QueueDeclare.payload [0x71, 0xC3] 1 1 1).dropLast) := by
    with_unfolding_all rfl
  have broken : ¬ Textual (QueueDeclare.record [0x71, 0xC3]) := by
    intro texts
    have text := texts [0x71, 0xC3] (by simp [QueueDeclare.record])
    rw [← Utf8.isWellFormed_iff_wellFormed] at text
    revert text
    decide
  exact ⟨((lifted _).2.1 _ accepted).2 broken, (lifted _).1 _ refused⟩

end WireProtocol
