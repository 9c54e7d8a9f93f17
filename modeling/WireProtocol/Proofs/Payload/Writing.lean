import WireProtocol.Payload.Writer
import WireProtocol.Proofs.Outcome

/-!
# What writing steps write

* `Writes step outcome`: the step returns and appends what the outcome says, or fails with its
  error, whatever has been written before.
* `Writes.bind`: what two steps write, one after the other.
* `Writes.run_empty`: what becomes of an empty payload.
* `Writes.number` to `Writes.table`: what the primitive encodings write.
-/

namespace WireProtocol

/-- The step returns a value and appends octets, or fails, whatever has been written before. -/
structure Writes {α : Type} (step : Write α) (outcome : Except FrameError (α × Bytes)) : Prop where
  ok : ∀ {value octets}, outcome = .ok (value, octets) →
    ∀ w, step.run w = (.ok value, ⟨w.bytes ++ octets⟩)
  error : ∀ {e}, outcome = .error e → ∀ w, (step.run w).1 = .error e

namespace Writes

variable {α β : Type} {step : Write α}

theorem of_ok {value : α} {octets : Bytes}
    (h : ∀ w, step.run w = (.ok value, ⟨w.bytes ++ octets⟩)) : Writes step (.ok (value, octets)) where
  ok := by
    rintro _ _ ⟨⟩
    exact h
  error := by
    rintro _ ⟨⟩

theorem of_error {e : FrameError} (h : ∀ w, (step.run w).1 = .error e) : Writes step (.error e) where
  ok := by
    rintro _ _ ⟨⟩
  error := by
    rintro _ ⟨⟩
    exact h

theorem pure (value : α) : Writes (pure value) (.ok (value, [])) :=
  of_ok fun w => by rw [List.append_nil]; rfl

theorem throw (e : FrameError) : Writes (throw e : Write α) (.error e) := of_error fun _ => rfl

/-- The octets of two steps are those of the first and then those of the second. -/
theorem bind {next : α → Write β} {first : Except FrameError (α × Bytes)}
    {second : α → Except FrameError (β × Bytes)} (h : Writes step first)
    (hnext : ∀ value, Writes (next value) (second value)) :
    Writes (step >>= next) (first >>= fun front => second front.1 >>= fun back =>
      .ok (back.1, front.2 ++ back.2)) := by
  cases first with
  | error e =>
    refine of_error fun w => ?_
    have failed : step.run w = (.error e, (step.run w).2) := Prod.ext (h.error rfl w) rfl
    exact congrArg Prod.fst (ExceptT.run_bind_of_error next failed)
  | ok front =>
    have ran (w : Writer) : (step >>= next).run w = (next front.1).run ⟨w.bytes ++ front.2⟩ :=
      ExceptT.run_bind_of_ok next (h.ok rfl w)
    change Writes _ (second front.1 >>= _)
    cases outcome : second front.1 with
    | error e =>
      refine of_error fun w => ?_
      rw [ran]
      exact (hnext front.1).error outcome _
    | ok back =>
      refine of_ok fun w => ?_
      rw [ran, ← List.append_assoc]
      exact (hnext front.1).ok outcome _

/-- What becomes of an empty payload. -/
theorem run_empty {outcome : Except FrameError (α × Bytes)} (h : Writes step outcome) :
    (∃ value octets, outcome = .ok (value, octets) ∧
        step.run Writer.empty = (.ok value, ⟨octets⟩)) ∨
      ∃ e w, outcome = .error e ∧ step.run Writer.empty = (.error e, w) := by
  cases outcome with
  | ok written => exact .inl ⟨written.1, written.2, rfl, h.ok rfl Writer.empty⟩
  | error e => exact .inr ⟨e, _, rfl, Prod.ext (h.error rfl Writer.empty) rfl⟩

/-! ## Primitive encodings -/

open BigEndian

theorem append (octets : Bytes) : Writes (Write.append octets) (.ok ((), octets)) :=
  of_ok fun _ => rfl

theorem number (width n : Nat) : Writes (Write.number width n) (.ok ((), encode width n)) :=
  append _

theorem counted (width : Nat) (octets : Bytes) :
    Writes (Write.counted width octets) (.ok ((), encode width octets.length ++ octets)) :=
  (number width octets.length).bind fun _ => append octets

theorem shortstr (value : Bytes) :
    Writes (Write.shortstr value)
      (if value.length < capacity 1 then .ok ((), encode 1 value.length ++ value)
        else .error (.shortStrOverflow value.length)) := by
  unfold Write.shortstr
  change Writes (if value.length < capacity 1 then _ else _) _
  split
  · exact counted 1 value
  · exact throw _

theorem longstr (value : Bytes) :
    Writes (Write.longstr value)
      (if value.length < capacity 4 then .ok ((), encode 4 value.length ++ value)
        else .error (.longStrOverflow value.length)) := by
  unfold Write.longstr
  change Writes (if value.length < capacity 4 then _ else _) _
  split
  · exact counted 4 value
  · exact throw _

/-- What a table is written as. A table without a body is reported under a fixed name. -/
theorem table (value : FieldTable) :
    Writes (Write.table value)
      (match value.encode with
        | .ok body =>
          if body.length < capacity 4 then .ok ((), encode 4 body.length ++ body)
          else .error (.longStrOverflow body.length)
        | .error source => .error (.table "table" source)) := by
  unfold Write.table
  cases value.encode with
  | ok body => exact longstr body
  | error source => exact throw _

end Writes

end WireProtocol
