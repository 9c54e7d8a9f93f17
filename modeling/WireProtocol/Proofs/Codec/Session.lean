import WireProtocol.Proofs.Codec.Value

/-!
# Sessions of writes

Values are written one after the other, and a write that fails does not end the session.

* `WireValue.write_run`: what one write does to whatever has been written before.
* `Writer.session`: the values that have been written at the end of a session, and the writer then.
* `Writer.session_eq`: these are the values of which something is written, and the writer holds
  nothing else besides what it held before.
* `WireValue.readAll_run`: values are read back from where they have been written.
* `Writer.session_reads_back`: a failed write leaves no trace, and the others read back.
-/

namespace WireProtocol

open BigEndian

namespace WireValue

/-! ## One write -/

/-- Octets that do not fit the length in front of them are refused before anything is written. -/
private theorem counted_run (width : Nat) (overflow : Nat → FrameError) (octets : Bytes)
    (w : Writer) :
    (if octets.length < capacity width then Write.counted width octets
        else throw (overflow octets.length) : Write Unit).run w =
      match countedWire width overflow octets with
      | .ok written => (.ok (), ⟨w.bytes ++ written⟩)
      | .error e => (.error e, w) := by
  unfold countedWire
  split
  · exact (Writes.counted width octets).ok rfl w
  · rfl

/-- A write appends what is written for the value, or fails and leaves the writer as it was. -/
theorem write_run (value : WireValue) (w : Writer) :
    value.write.run w =
      match value.wire with
      | .ok octets => (.ok (), ⟨w.bytes ++ octets⟩)
      | .error e => (.error e, w) := by
  cases value with
  | bit | octet | short | long | longlong | timestamp => rfl
  | shortstr bytes => exact counted_run 1 .shortStrOverflow bytes w
  | longstr bytes => exact counted_run 4 .longStrOverflow bytes w
  | table entries =>
    rw [write, Write.table, wire]
    cases entries.encode with
    | ok body => exact counted_run 4 .longStrOverflow body w
    | error source => rfl

end WireValue

/-! ## A session -/

/-- The values of a session that have been written, in order, and the writer at its end. The session
goes on with whatever a failed write has left. -/
def Writer.session (w : Writer) : List WireValue → List WireValue × Writer
  | [] => ([], w)
  | value :: values =>
    match value.write.run w with
    | (.ok (), next) => (value :: (next.session values).1, (next.session values).2)
    | (.error _, next) => next.session values

/-- The values of which something is written are those that have been written at the end, and what
the writer holds then is what is written for them, behind what it held before. -/
theorem Writer.session_eq (w : Writer) (values : List WireValue) :
    (w.session values).1 = values.filter (·.wire.isOk) ∧
      ∃ parts, (w.session values).1.mapM WireValue.wire = .ok parts ∧
        (w.session values).2.bytes = w.bytes ++ parts.flatten := by
  induction values generalizing w with
  | nil => exact ⟨rfl, [], rfl, (List.append_nil w.bytes).symm⟩
  | cons value values ih =>
    have step := WireValue.write_run value w
    cases written : value.wire with
    | ok octets =>
      rw [written] at step
      obtain ⟨kept, parts, wires, bytes⟩ := ih ⟨w.bytes ++ octets⟩
      rw [session, step, List.filter_cons_of_pos (by rw [written]; rfl)]
      refine ⟨congrArg (value :: ·) kept, octets :: parts, ?_, ?_⟩
      · rw [List.mapM_cons, written, wires]
        rfl
      · rw [bytes, List.flatten_cons, List.append_assoc]
    | error e =>
      rw [written] at step
      rw [session, step, List.filter_cons_of_neg (by rw [written]; exact Bool.false_ne_true)]
      exact ih w

/-! ## Reading back -/

namespace WireValue

/-- A value is read back from where it has been written. -/
theorem read_run_of_wire {value : WireValue} {octets rest : Bytes} {r : Reader}
    (written : value.wire = .ok octets) (front : r.rest = octets ++ rest) :
    (read value.wireType).run r = (.ok value, r.advance octets.length) := by
  cases single : value.wireType.isBit with
  | true =>
    -- A bit by itself is the lowest one of an octet.
    obtain ⟨set, rfl⟩ := eq_bit_of_isBit single
    cases written
    refine (Reads.octet.map (fun octet => bit (octet.toNat.testBit 0)) r _ _).mpr
      ⟨_, rest, ⟨set.toUInt8, rfl, ?_⟩, front, rfl⟩
    cases set <;> rfl
  | false =>
    exact (Reads.value single r value _).mpr
      ⟨octets, rest, ⟨rfl, WireForm.of_wire written single⟩, front, rfl⟩

/-- Values are read back from where they have been written, one after the other. -/
theorem readAll_run {values : List WireValue} {parts : List Bytes} {rest : Bytes} {r : Reader}
    (written : values.mapM wire = .ok parts) (front : r.rest = parts.flatten ++ rest) :
    ((values.map wireType).mapM read).run r = (.ok values, r.advance parts.flatten.length) := by
  induction values generalizing parts r with
  | nil =>
    cases written
    rfl
  | cons value values ih =>
    rw [List.mapM_cons] at written
    obtain ⟨octets, first, written⟩ := Except.bind_eq_ok.mp written
    obtain ⟨others, rest', same⟩ := Except.bind_eq_ok.mp written
    cases same
    rw [List.flatten_cons, List.append_assoc] at front
    rw [List.map_cons, List.mapM_cons, List.flatten_cons, List.length_append,
      ← Reader.advance_advance]
    refine Read.run_bind_eq_ok.mpr ⟨value, _, read_run_of_wire first front, ?_⟩
    exact Read.run_bind_eq_ok.mpr
      ⟨values, _, ih rest' (Reader.rest_advance_of_append front), rfl⟩

end WireValue

/-! ## Whole sessions -/

/-- A write that fails leaves the writer as it was. At the end of a session the writer holds what is
written for the values of the writes that did not fail, and nothing else. Read as values of the same
types, in the same order, it gives back these values, and then it is at its end. -/
theorem Writer.session_reads_back (values : List WireValue) :
    (∀ (w : Writer) (value : WireValue) (e : FrameError), (value.write.run w).1 = .error e →
        (value.write.run w).2 = w) ∧
      ∃ written parts w, Writer.empty.session values = (written, w) ∧
        written = values.filter (·.wire.isOk) ∧
        written.mapM WireValue.wire = .ok parts ∧ w.bytes = parts.flatten ∧
        ∀ name, ∃ r,
          ((written.map WireValue.wireType).mapM WireValue.read).run (Reader.start name w.bytes) =
            (.ok written, r) ∧
          Read.finish.run r = (.ok (), r) := by
  constructor
  · intro w value e failed
    rw [WireValue.write_run] at failed ⊢
    split at failed
    · cases failed
    · rfl
  · obtain ⟨kept, parts, wires, bytes⟩ := Writer.empty.session_eq values
    refine ⟨_, parts, _, rfl, kept, wires, bytes, fun name => ?_⟩
    rw [bytes]
    have front : (Reader.start name parts.flatten).rest = parts.flatten ++ [] := by
      rw [List.append_nil]
      rfl
    refine ⟨_, WireValue.readAll_run wires front, Read.finish_run_eq_ok.mpr ⟨?_, rfl⟩⟩
    exact Nat.zero_add _

namespace QueueArguments

/-- A name of 256 letters, which is too long for a table inside a table and for a short string. -/
def longName : Bytes :=
  List.replicate 256 0x6B

/-- A number, a string that is too long, a table with a name inside that is too long, and another
number. -/
def session : List WireValue :=
  [.octet 1, .shortstr longName, .table [([], .array [.table [(longName, .void)]])], .short 0x0203]

/-- Only the numbers are there in the end. -/
theorem numbers_of_session_read_back :
    Writer.empty.session session = ([.octet 1, .short 0x0203], ⟨[1, 2, 3]⟩) ∧
      ∃ r, (do return [← WireValue.read .octet, ← WireValue.read .short] : Read _).run
          (Reader.start "queue" [1, 2, 3]) = (.ok [.octet 1, .short 0x0203], r) ∧
        Read.finish.run r = (.ok (), r) := by
  obtain ⟨-, written, parts, ⟨bytes⟩, ran, kept, wires, rfl, reads⟩ :=
    Writer.session_reads_back session
  have outcomes : session.map (·.wire.isOk) = [true, false, false, true] := by decide +kernel
  have same : written = [.octet 1, .short 0x0203] := by
    simp_all [session]
  subst same
  cases wires
  exact ⟨ran, reads "queue"⟩

end QueueArguments

end WireProtocol
