import WireProtocol.Proofs.Payload.Reading

/-!
# Reading shorter and longer payloads

What becomes of a reading step when octets are taken away from the end of the payload, or others
follow it.

* `Read.Stable`: octets behind the payload make no difference to the step unless it runs out of
  octets without them.
* `Read.Regular`: besides, the step fails only because of the payload, under the name of its owner.
* `Read.Regular.octet` to `Read.Regular.table`: the primitive encodings are read by such steps.
* `Read.Stable.toEnd_of_longer`, `Read.Stable.toEnd_of_shorter`: a payload that has been read to its end
  is a framing error once it is cut short or continued.
-/

namespace WireProtocol

namespace Reader

/-- The payload with more octets behind it, and read as far. -/
def extend (more : Bytes) (r : Reader) : Reader :=
  { r with payload := r.payload ++ more }

theorem length_extend_ne {more : Bytes} (some : more ≠ []) (r : Reader) :
    (r.extend more).payload.length ≠ r.payload.length := by
  have positive := List.length_pos_iff.mpr some
  have length : (r.extend more).payload.length = r.payload.length + more.length :=
    List.length_append
  omega

/-- An error tells of the payload as a whole: that it does not match what is read from it, or that a
table in it is malformed. -/
def Blames (r : Reader) (e : FrameError) : Prop :=
  e = r.framingError ∨ ∃ source, e = .table r.name source

end Reader

namespace Read

variable {α β : Type} {step : Read α}

/-- The step does the same on a longer payload, as far as it does not run out of octets. -/
def Stable (step : Read α) : Prop :=
  ∀ r more, (step.run r).1 = .error r.framingError ∨
    ∃ outcome n, step.run r = (outcome, r.advance n) ∧
      step.run (r.extend more) = (outcome, (r.extend more).advance n)

/-- The step is stable, and it fails only because of the payload that is read. -/
structure Regular (step : Read α) : Prop where
  stable : Stable step
  blames : ∀ r e, (step.run r).1 = .error e → r.Blames e

/-- A stable step moves forward in its payload when it succeeds. -/
theorem Stable.exists_advance (h : Stable step) {r r' : Reader} {value : α}
    (ran : step.run r = (.ok value, r')) : ∃ n, r' = r.advance n := by
  rcases h r [] with short | ⟨outcome, n, ran', -⟩
  · rw [ran] at short
    cases short
  · rw [ran] at ran'
    cases ran'
    exact ⟨n, rfl⟩

/-! ## Steps one after the other -/

namespace Stable

/-- A step that reads nothing, and whose outcome does not depend on the payload. -/
theorem of_run (outcome : Reader → Except FrameError α) (h : ∀ r, step.run r = (outcome r, r))
    (same : ∀ r more, outcome (r.extend more) = outcome r) :
    Stable step := by
  intro r more
  refine .inr ⟨outcome r, 0, h r, ?_⟩
  rw [h, same]
  rfl

theorem throw (e : FrameError) : Stable (MonadExcept.throw e : Read α) :=
  of_run (fun _ => .error e) (fun _ => rfl) fun _ _ => rfl

theorem bind {next : α → Read β} (h : Stable step) (hnext : ∀ value, Stable (next value)) :
    Stable (step >>= next) := by
  intro r more
  rcases h r more with short | ⟨outcome, n, ran, ran'⟩
  · have failed : step.run r = (.error r.framingError, (step.run r).2) := Prod.ext short rfl
    exact .inl (congrArg Prod.fst (ExceptT.run_bind_of_error next failed))
  · cases outcome with
    | error e =>
      exact .inr ⟨.error e, n, ExceptT.run_bind_of_error next ran,
        ExceptT.run_bind_of_error next ran'⟩
    | ok value =>
      have first : (step >>= next).run r = (next value).run (r.advance n) :=
        ExceptT.run_bind_of_ok next ran
      have first' : (step >>= next).run (r.extend more) =
          (next value).run ((r.advance n).extend more) := ExceptT.run_bind_of_ok next ran'
      rw [first, first']
      rcases hnext value (r.advance n) more with short | ⟨outcome, k, second, second'⟩
      · exact .inl short
      · refine .inr ⟨outcome, n + k, ?_, ?_⟩
        · rw [second, Reader.advance_advance]
        · rw [second', ← Reader.advance_advance]
          rfl

end Stable

namespace Regular

theorem pure (value : α) : Regular (Pure.pure value : Read α) where
  stable := .of_run (fun _ => .ok value) (fun _ => rfl) fun _ _ => rfl
  blames _ _ := nofun

theorem bind {next : α → Read β} (h : Regular step) (hnext : ∀ value, Regular (next value)) :
    Regular (step >>= next) where
  stable := h.stable.bind fun value => (hnext value).stable
  blames r e failed := by
    rcases ran : step.run r with ⟨e' | value, r'⟩
    · have same := (congrArg Prod.fst (ExceptT.run_bind_of_error next ran)).symm.trans failed
      cases same
      exact h.blames r e (congrArg Prod.fst ran)
    · -- The second step reads on in the payload of the first.
      obtain ⟨n, rfl⟩ := h.stable.exists_advance ran
      have second := (congrArg Prod.fst (ExceptT.run_bind_of_ok next ran)).symm.trans failed
      exact (hnext value).blames (r.advance n) e second

theorem map (h : Regular step) (f : α → β) :
    Regular (step >>= fun value => Pure.pure (f value)) :=
  h.bind fun value => pure (f value)

end Regular

/-! ## Primitive encodings -/

theorem take_run_of_lt {n : Nat} {r : Reader} (short : r.remaining < n) :
    (take n).run r = (.error r.framingError, r) :=
  if_neg (Nat.not_le.mpr short)

namespace Regular

theorem take (n : Nat) : Regular (Read.take n) where
  stable r more := by
    by_cases enough : n ≤ r.remaining
    · have enough' : n ≤ (r.extend more).remaining := by
        have longer : (r.extend more).payload.length = r.payload.length + more.length :=
          List.length_append
        have same : (r.extend more).pos = r.pos := rfl
        unfold Reader.remaining at *
        omega
      have front : (r.extend more).rest.take n = r.rest.take n := by
        have parts : (r.extend more).rest = r.rest ++ more.drop (r.pos - r.payload.length) :=
          List.drop_append
        rw [parts, List.take_append_of_le_length (by rwa [Reader.length_rest])]
      refine .inr ⟨.ok (r.rest.take n), n, if_pos enough, ?_⟩
      rw [← front]
      exact if_pos enough'
    · exact .inl (congrArg Prod.fst (take_run_of_lt (Nat.not_le.mp enough)))
  blames r e failed := by
    by_cases enough : n ≤ r.remaining
    · have ran : (Read.take n).run r = (.ok (r.rest.take n), r.advance n) := if_pos enough
      rw [ran] at failed
      cases failed
    · rw [take_run_of_lt (Nat.not_le.mp enough)] at failed
      cases failed
      exact .inl rfl

theorem number (width : Nat) : Regular (Read.number width) :=
  (take width).map BigEndian.decode

theorem counted (width : Nat) : Regular (Read.counted width) :=
  (number width).bind take

theorem octet : Regular Read.octet :=
  (number 1).map UInt8.ofNat

theorem short : Regular Read.short :=
  (number 2).map UInt16.ofNat

theorem long : Regular Read.long :=
  (number 4).map UInt32.ofNat

theorem longlong : Regular Read.longlong :=
  (number 8).map UInt64.ofNat

/-- A malformed table is blamed on the payload that it has been found in. -/
theorem table : Regular Read.table := by
  refine (counted 4).bind fun body => ?_
  cases FieldTable.decode body with
  | ok table => exact pure table
  | error source =>
    refine ⟨.of_run (fun r => .error (.table r.name source)) (fun _ => rfl) fun _ _ => rfl,
      fun r e failed => ?_⟩
    cases failed
    exact .inr ⟨source, rfl⟩

end Regular

/-! ## Whole payloads -/

/-- The step, and then the end of the payload. -/
def toEnd (step : Read α) : Read α := do
  let value ← step
  Read.finish
  return value

theorem toEnd_run_of_error {r r' : Reader} {e : FrameError} (ran : step.run r = (.error e, r')) :
    step.toEnd.run r = (.error e, r') :=
  ExceptT.run_bind_of_error _ ran

theorem toEnd_run_of_ok {r r' : Reader} {value : α} (ran : step.run r = (.ok value, r')) :
    step.toEnd.run r =
      if r'.pos = r'.payload.length then (.ok value, r') else (.error r'.framingError, r') := by
  have first : step.toEnd.run r = (Read.finish >>= fun _ => Pure.pure value : Read α).run r' :=
    ExceptT.run_bind_of_ok _ ran
  have last := Read.finish_run r'
  rw [first]
  split at last
  · rw [if_pos ‹_›]
    exact ExceptT.run_bind_of_ok _ last
  · rw [if_neg ‹_›]
    exact ExceptT.run_bind_of_error _ last

theorem toEnd_run_eq_ok {r : Reader} {value : α} :
    (step.toEnd.run r).1 = .ok value ↔
      ∃ r', step.run r = (.ok value, r') ∧ r'.pos = r'.payload.length := by
  constructor
  · intro accepted
    rcases ran : step.run r with ⟨e | value', r'⟩
    · rw [toEnd_run_of_error ran] at accepted
      cases accepted
    · rw [toEnd_run_of_ok ran] at accepted
      split at accepted
      · cases accepted
        exact ⟨r', rfl, ‹_›⟩
      · cases accepted
  · rintro ⟨r', ran, ended⟩
    rw [toEnd_run_of_ok ran, if_pos ended]

/-- Octets that are left over are blamed on the payload as well. -/
theorem Regular.blames_toEnd (h : Regular step) {r : Reader} {e : FrameError}
    (failed : (step.toEnd.run r).1 = .error e) : r.Blames e := by
  rcases ran : step.run r with ⟨e' | value, r'⟩
  · rw [toEnd_run_of_error ran] at failed
    cases failed
    exact h.blames r e (congrArg Prod.fst ran)
  · rw [toEnd_run_of_ok ran] at failed
    obtain ⟨n, rfl⟩ := h.stable.exists_advance ran
    split at failed
    · cases failed
    · cases failed
      exact .inl rfl

/-- What succeeds at the end of a payload is a framing error on any shorter one. -/
theorem Stable.toEnd_of_longer (h : Stable step) {r : Reader} {more : Bytes} {value : α}
    (some : more ≠ []) (accepted : (step.toEnd.run (r.extend more)).1 = .ok value) :
    (step.toEnd.run r).1 = .error r.framingError := by
  obtain ⟨r', ran, ended⟩ := toEnd_run_eq_ok.mp accepted
  rcases h r more with short | ⟨outcome, n, ran', same⟩
  · exact congrArg Prod.fst (toEnd_run_of_error (Prod.ext short rfl))
  · cases ran.symm.trans same
    have past : (r.advance n).pos ≠ (r.advance n).payload.length := fun here =>
      Reader.length_extend_ne some r (ended.symm.trans here)
    rw [toEnd_run_of_ok ran', if_neg past]
    rfl

/-- What succeeds at the end of a payload is a framing error on any longer one. -/
theorem Stable.toEnd_of_shorter (h : Stable step) {r : Reader} {more : Bytes} {value : α}
    (some : more ≠ []) (accepted : (step.toEnd.run r).1 = .ok value) :
    (step.toEnd.run (r.extend more)).1 = .error (r.extend more).framingError := by
  obtain ⟨r', ran, ended⟩ := toEnd_run_eq_ok.mp accepted
  rcases h r more with short | ⟨outcome, n, ran', same⟩
  · rw [ran] at short
    cases short
  · cases ran.symm.trans ran'
    have before : ((r.extend more).advance n).pos ≠ ((r.extend more).advance n).payload.length :=
      fun here => Reader.length_extend_ne some r (here.symm.trans ended)
    rw [toEnd_run_of_ok same, if_neg before]
    rfl

end Read

end WireProtocol
