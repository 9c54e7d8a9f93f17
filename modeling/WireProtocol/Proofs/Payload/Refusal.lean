import WireProtocol.Proofs.Bytes.Shortage
import WireProtocol.Proofs.Payload.Stability

/-!
# What reading steps refuse

* `PayloadFlaw`: what can be wrong with the octets at a place of a payload.
* `Refuses step flawed`: the step fails exactly where the octets that come next are flawed, with the
  error that tells the flaw.
* `Refuses.bind`: of two steps the second fails only where the first one succeeds.
* `Refuses.counted`, `Refuses.table`: the flaws of the primitive encodings.
* `Refuses.whole`: a payload that has to be read to its end is refused for its first flaw, or else for
  octets that are left over.
* `Read.counted_run_of_shortAt`, `Read.table_run_of_malformed`: how far a refused step has read.
-/

namespace WireProtocol

open BigEndian

/-- What can be wrong with the octets at a place of a payload: they run out, or the body of a table
among them is malformed. -/
inductive PayloadFlaw where
  | short
  | malformed (source : TableError)

/-- The error that tells a flaw. -/
def Reader.error (r : Reader) : PayloadFlaw → FrameError
  | .short => r.framingError
  | .malformed source => .table r.name source

/-- The step fails exactly where the octets that come next are flawed, and its error tells the flaw. -/
def Refuses {α : Type} (step : Read α) (flawed : PayloadFlaw → Bytes → Prop) : Prop :=
  ∀ r e, (step.run r).1 = .error e ↔ ∃ flaw, flawed flaw r.rest ∧ e = r.error flaw

/-- Of two steps the second decides the error where the first one succeeds. -/
theorem Read.run_bind_eq_error {α β : Type} {step : Read α} {next : α → Read β} {r : Reader}
    {e : FrameError} :
    ((step >>= next).run r).1 = .error e ↔
      (step.run r).1 = .error e ∨
        ∃ value r', step.run r = (.ok value, r') ∧ ((next value).run r').1 = .error e := by
  rcases ran : step.run r with ⟨e' | value, r'⟩
  · have whole : (step >>= next).run r = (.error e', r') := ExceptT.run_bind_of_error next ran
    rw [whole]
    constructor
    · intro h
      cases h
      exact .inl rfl
    · rintro (⟨⟨⟩⟩ | ⟨_, _, ⟨⟩, -⟩)
      rfl
  · have whole : (step >>= next).run r = (next value).run r' := ExceptT.run_bind_of_ok next ran
    rw [whole]
    constructor
    · exact fun failed => .inr ⟨value, r', rfl, failed⟩
    · rintro (⟨⟨⟩⟩ | ⟨_, _, ⟨⟩, failed⟩)
      exact failed

/-- A step fails at the end of a payload where it fails by itself, and where it stops short of the
end. -/
theorem Read.toEnd_run_eq_error {α : Type} {step : Read α} {r : Reader} {e : FrameError} :
    (step.toEnd.run r).1 = .error e ↔
      (step.run r).1 = .error e ∨
        ∃ value r', step.run r = (.ok value, r') ∧ r'.pos ≠ r'.payload.length ∧
          e = r'.framingError := by
  rcases ran : step.run r with ⟨e' | value, r'⟩
  · rw [Read.toEnd_run_of_error ran]
    refine (or_iff_left ?_).symm
    rintro ⟨value, _, ⟨⟩, -⟩
  · rw [Read.toEnd_run_of_ok ran]
    split
    · rename_i ended
      refine iff_of_false nofun ?_
      rintro (⟨⟨⟩⟩ | ⟨_, _, ⟨⟩, unfinished, -⟩)
      exact unfinished ended
    · rename_i unfinished
      constructor
      · intro h
        cases h
        exact .inr ⟨value, r', rfl, unfinished, rfl⟩
      · rintro (⟨⟨⟩⟩ | ⟨_, _, ⟨⟩, -, rfl⟩)
        rfl

namespace Refuses

variable {α β : Type} {step : Read α} {form : α → Bytes → Prop}
  {flawed flawed' : PayloadFlaw → Bytes → Prop}

theorem congr (h : Refuses step flawed) (same : ∀ flaw octets, flawed flaw octets ↔ flawed' flaw octets) :
    Refuses step flawed' := by
  intro r e
  rw [h r e]
  simp only [same]

theorem pure (value : α) : Refuses (Pure.pure value : Read α) fun _ _ => False := by
  intro r e
  refine iff_of_false nofun ?_
  rintro ⟨flaw, impossible, -⟩
  exact impossible

/-- The octets of two steps are flawed when those of the first are, or when the first reads what is
in front of octets that are flawed for the second. -/
theorem bind {next : α → Read β} {others : α → PayloadFlaw → Bytes → Prop} (h : Refuses step flawed)
    (reads : Reads step form) (hnext : ∀ value, Refuses (next value) (others value)) :
    Refuses (step >>= next) fun flaw octets => flawed flaw octets ∨
      ∃ value front back, form value front ∧ octets = front ++ back ∧ others value flaw back := by
  intro r e
  rw [Read.run_bind_eq_error, h r e]
  constructor
  · rintro (⟨flaw, first, rfl⟩ | ⟨value, r', ran, failed⟩)
    · exact ⟨flaw, .inl first, rfl⟩
    · obtain ⟨front, back, spelled, parts, rfl⟩ := (reads r value r').mp ran
      obtain ⟨flaw, second, rfl⟩ := (hnext value _ e).mp failed
      rw [Reader.rest_advance_of_append parts] at second
      exact ⟨flaw, .inr ⟨value, front, back, spelled, parts, second⟩, rfl⟩
  · rintro ⟨flaw, first | ⟨value, front, back, spelled, parts, second⟩, rfl⟩
    · exact .inl ⟨flaw, first, rfl⟩
    · have ran := (reads r value _).mpr ⟨front, back, spelled, parts, rfl⟩
      refine .inr ⟨value, _, ran, (hnext value _ _).mpr ⟨flaw, ?_, rfl⟩⟩
      rwa [Reader.rest_advance_of_append parts]

/-- A change of the value changes no flaw. -/
theorem map (h : Refuses step flawed) (f : α → β) :
    Refuses (step >>= fun value => Pure.pure (f value)) flawed := by
  intro r e
  rw [Read.run_bind_eq_error, h r e]
  refine or_iff_left ?_
  rintro ⟨value, r', -, impossible⟩
  cases impossible

/-! ## Primitive encodings -/

theorem take (n : Nat) : Refuses (Read.take n) fun flaw octets => flaw = .short ∧ octets.length < n := by
  intro r e
  have few : r.rest.length < n ↔ ¬ n ≤ r.remaining := by rw [Reader.length_rest, Nat.not_le]
  by_cases enough : n ≤ r.remaining
  · have ran : (Read.take n).run r = (.ok (r.rest.take n), r.advance n) := if_pos enough
    rw [ran]
    refine iff_of_false nofun ?_
    rintro ⟨flaw, ⟨-, short⟩, -⟩
    exact few.mp short enough
  · rw [Read.take_run_of_lt (Nat.not_le.mp enough)]
    constructor
    · intro h
      cases h
      exact ⟨.short, ⟨rfl, few.mpr enough⟩, rfl⟩
    · rintro ⟨flaw, ⟨rfl, -⟩, rfl⟩
      rfl

theorem number (width : Nat) :
    Refuses (Read.number width) fun flaw octets => flaw = .short ∧ octets.length < width :=
  (take width).map BigEndian.decode

theorem counted (width : Nat) :
    Refuses (Read.counted width) fun flaw octets =>
      flaw = .short ∧ ∃ n, ShortAt (CountedAwaits width) octets n := by
  refine ((number width).bind (Reads.number width) take).congr fun flaw octets => ?_
  constructor
  · rintro (⟨rfl, short⟩ | ⟨n, front, back, ⟨bound, rfl⟩, rfl, rfl, short⟩)
    · exact ⟨rfl, 0, .of_nil .number short⟩
    · exact ⟨rfl, _, .of_append (.octets bound) short⟩
  · rintro ⟨rfl, n, short⟩
    obtain ⟨part, needed, rest, next, rfl, few, rfl⟩ := shortAt_iff.mp short
    cases next with
    | number => exact .inl ⟨rfl, few⟩
    | octets bound => exact .inr ⟨needed, _, rest, ⟨bound, rfl⟩, rfl, rfl, few⟩

theorem octet : Refuses Read.octet fun flaw octets => flaw = .short ∧ octets.length < 1 :=
  (number 1).map UInt8.ofNat

theorem short : Refuses Read.short fun flaw octets => flaw = .short ∧ octets.length < 2 :=
  (number 2).map UInt16.ofNat

theorem long : Refuses Read.long fun flaw octets => flaw = .short ∧ octets.length < 4 :=
  (number 4).map UInt32.ofNat

theorem longlong : Refuses Read.longlong fun flaw octets => flaw = .short ∧ octets.length < 8 :=
  (number 8).map UInt64.ofNat

/-- A table is refused where its length or its body runs out of octets, and where a body that is there
is malformed. -/
theorem table :
    Refuses Read.table fun flaw octets =>
      (flaw = .short ∧ ∃ n, ShortAt (CountedAwaits 4) octets n) ∨
      ∃ body rest source, flaw = .malformed source ∧ body.length < capacity 4 ∧
        octets = encode 4 body.length ++ body ++ rest ∧ FieldTable.decode body = .error source := by
  refine (@bind _ _ _ _ _ _ (fun body flaw _ => ∃ source, flaw = .malformed source ∧
    FieldTable.decode body = .error source) (counted 4) (Reads.counted 4) fun body => ?_).congr
      fun flaw octets => or_congr_right ?_
  · cases decoded : FieldTable.decode body with
    | ok table =>
      refine (pure table).congr fun flaw octets => ?_
      simp
    | error source =>
      intro r e
      constructor
      · intro h
        cases h
        exact ⟨.malformed source, ⟨source, rfl, rfl⟩, rfl⟩
      · rintro ⟨flaw, ⟨_, rfl, ⟨⟩⟩, rfl⟩
        rfl
  · constructor
    · rintro ⟨body, front, rest, ⟨bound, rfl⟩, rfl, source, rfl, refused⟩
      exact ⟨body, rest, source, rfl, bound, rfl, refused⟩
    · rintro ⟨body, rest, source, rfl, bound, rfl, refused⟩
      exact ⟨body, _, rest, ⟨bound, rfl⟩, rfl, source, rfl, refused⟩

/-! ## Whole payloads -/

/-- A payload that has to be read to its end is refused for a flaw, or else for octets that are left
over. -/
theorem whole (h : Refuses step flawed) (reads : Reads step form) {name : String} {payload : Bytes}
    {e : FrameError} :
    (step.toEnd.run (Reader.start name payload)).1 = .error e ↔
      (∃ flaw, flawed flaw payload ∧ e = (Reader.start name payload).error flaw) ∨
      ∃ value front rest, form value front ∧ payload = front ++ rest ∧ rest ≠ [] ∧
        e = .framing name payload := by
  have all {front rest : Bytes} (parts : payload = front ++ rest) :
      0 + front.length = payload.length ↔ rest = [] := by
    rw [parts, List.length_append, ← List.length_eq_zero_iff]
    omega
  rw [Read.toEnd_run_eq_error, h _ e]
  refine or_congr_right ⟨?_, ?_⟩
  · rintro ⟨value, r', ran, unfinished, rfl⟩
    obtain ⟨front, rest, spelled, parts, rfl⟩ := (reads _ value r').mp ran
    exact ⟨value, front, rest, spelled, parts, mt (all parts).mpr unfinished, rfl⟩
  · rintro ⟨value, front, rest, spelled, parts, more, rfl⟩
    have ran := (reads (Reader.start name payload) value _).mpr ⟨front, rest, spelled, parts, rfl⟩
    exact ⟨value, _, ran, mt (all parts).mp more, rfl⟩

end Refuses

/-! ## Where a refused step stops -/

namespace Read

variable {r : Reader} {width n : Nat}

theorem number_run_of_lt (few : r.rest.length < width) :
    (number width).run r = (.error r.framingError, r) :=
  ExceptT.run_bind_of_error _ (take_run_of_lt (r.length_rest ▸ few))

/-- Of octets behind their number, the number stays read when the octets run out behind it. -/
theorem counted_run_of_shortAt (short : ShortAt (CountedAwaits width) r.rest n) :
    (counted width).run r = (.error r.framingError, r.advance n) := by
  obtain ⟨part, needed, rest, next, front, few, rfl⟩ := shortAt_iff.mp short
  cases next with
  | number =>
    exact ExceptT.run_bind_of_error _ (number_run_of_lt (by rwa [front, List.nil_append]))
  | octets bound =>
    have first := (Reads.number width r needed _).mpr ⟨_, rest, ⟨bound, rfl⟩, front, rfl⟩
    refine (ExceptT.run_bind_of_ok _ first).trans (take_run_of_lt ?_)
    rwa [← Reader.length_rest, Reader.rest_advance_of_append front]

/-- A malformed body has been read when it is refused. -/
theorem table_run_of_malformed {body rest : Bytes} {source : TableError}
    (front : r.rest = encode 4 body.length ++ body ++ rest) (bound : body.length < capacity 4)
    (refused : FieldTable.decode body = .error source) :
    table.run r = (.error (.table r.name source), r.advance (4 + body.length)) := by
  have first := (Reads.counted 4 r body _).mpr ⟨_, rest, ⟨bound, rfl⟩, front, rfl⟩
  rw [List.length_append, length_encode] at first
  refine (ExceptT.run_bind_of_ok _ first).trans ?_
  rw [refused]
  rfl

end Read

end WireProtocol
