import WireProtocol.Proofs.Codec.Refusal
import WireProtocol.Proofs.Codec.Runs
import WireProtocol.Proofs.Payload.Accesses

/-!
# Sessions of calls

A payload is read by calls, one after the other, and a call that fails does not end the session. Short
strings, long strings and tables fail in their middle as well: their length has been read then, and the
next call starts behind it. Whether the payload has been read to its end is asked once, behind a session.

* `ReadCall`, `ReadCall.step`: what a reader can be asked, and what it answers.
* `Reader.session`: the answers of a session, and the reader behind it.
* `ReadCall.guardedStep`, `Reader.guardedSession`: the same with accesses that may panic.
* `Reader.session_moves`, `Reader.guardedSession_eq`: from a position within the payload, a session only
  moves forward, to another such position, and it does not panic.
* `Reader.Effects`: what becomes of a reader by the next call, and when it counts as read to its end.
* `Reader.sessions_stay_within`: no session panics, none leaves the payload or goes back in it, and each
  reader that one leads to has these effects.
-/

namespace WireProtocol

open BigEndian

/-! ## Calls -/

/-- What a reader can be asked: the value that comes next, how many octets are left, and the error that
blames the payload. A bit is asked for as a part of an octet. -/
inductive ReadCall where
  | value (ty : WireType) (single : ty.isBit = false)
  | remaining
  | framingError

/-- What a call that does not fail returns. -/
inductive ReadAnswer where
  | value (value : WireValue)
  | remaining (count : Nat)
  | framingError (e : FrameError)

namespace ReadCall

/-- What a call does. Only a call for a value reads anything. -/
def step : ReadCall → Read ReadAnswer
  | value ty _ => return .value (← WireValue.read ty)
  | remaining => return .remaining (← get).remaining
  | framingError => return .framingError (← get).framingError

end ReadCall

/-- The answers to calls, and the reader behind the last of them. A session goes on from wherever a
failed call has left the reader. -/
def Reader.session (r : Reader) : List ReadCall → List (Except FrameError ReadAnswer) × Reader
  | [] => ([], r)
  | call :: calls =>
    let next := (call.step.run r).2
    ((call.step.run r).1 :: (next.session calls).1, (next.session calls).2)

/-! ## Guarded calls -/

/-- A value of a type at the front of a payload, read with accesses that may panic. -/
def GuardedRead.value : WireType → GuardedRead WireValue
  | .bit => return .bit ((← octet).toNat.testBit 0)
  | .octet => return .octet (← octet)
  | .short => return .short (← short)
  | .long => return .long (← long)
  | .longlong => return .longlong (← longlong)
  | .timestamp => return .timestamp (← longlong)
  | .shortstr => return .shortstr (← counted 1)
  | .longstr => return .longstr (← counted 4)
  | .table => return .table (← table)

/-- What a call does with accesses that may panic. -/
def ReadCall.guardedStep : ReadCall → GuardedRead ReadAnswer
  | value ty _ => return .value (← GuardedRead.value ty)
  | remaining => return .remaining (← GuardedRead.remaining)
  | framingError => return .framingError (← get).framingError

/-- A session of guarded calls. It has no outcome when one of them panics. -/
def Reader.guardedSession (r : Reader) :
    List ReadCall → Option (List (Except FrameError ReadAnswer) × Reader)
  | [] => some ([], r)
  | call :: calls => do
    let (answer, next) ← call.guardedStep r
    let (answers, last) ← next.guardedSession calls
    return (answer :: answers, last)

namespace Guards

theorem value (ty : WireType) : Guards (GuardedRead.value ty) (WireValue.read ty) := by
  cases ty with
  | bit => exact octet.map fun octet => WireValue.bit (octet.toNat.testBit 0)
  | octet => exact octet.map WireValue.octet
  | short => exact short.map WireValue.short
  | long => exact long.map WireValue.long
  | longlong => exact longlong.map WireValue.longlong
  | timestamp => exact longlong.map WireValue.timestamp
  | shortstr => exact (counted 1).map WireValue.shortstr
  | longstr => exact (counted 4).map WireValue.longstr
  | table => exact table.map WireValue.table

theorem call (call : ReadCall) : Guards call.guardedStep call.step := by
  cases call with
  | value ty => exact (value ty).map ReadAnswer.value
  | remaining => exact remaining.map ReadAnswer.remaining
  | framingError => exact .of_run (fun r => .ok (.framingError r.framingError)) (fun _ => rfl) fun _ => rfl

end Guards

namespace Reader

variable {r : Reader}

/-- A session goes on from where the calls before have led. -/
theorem session_append (r : Reader) (calls more : List ReadCall) :
    r.session (calls ++ more) = ((r.session calls).1 ++ ((r.session calls).2.session more).1,
      ((r.session calls).2.session more).2) := by
  induction calls generalizing r with
  | nil => rfl
  | cons call calls ih =>
    rw [List.cons_append, session, ih]
    rfl

/-- A session moves forward by no more octets than there are. -/
theorem session_moves (h : r.Within) (calls : List ReadCall) :
    ∃ n ≤ r.remaining, (r.session calls).2 = r.advance n := by
  induction calls generalizing r with
  | nil => exact ⟨0, Nat.zero_le _, rfl⟩
  | cons call calls ih =>
    -- The first call ends within the payload, failed or not, so the others start from there.
    obtain ⟨n, enough, moved⟩ := (Guards.call call).moves h
    obtain ⟨more, enough', moved'⟩ := ih (h.advance enough)
    rw [remaining_advance] at enough'
    refine ⟨n + more, by omega, ?_⟩
    rw [← advance_advance, ← moved', ← moved]
    rfl

/-- No session that starts within its payload panics. -/
theorem guardedSession_eq (h : r.Within) (calls : List ReadCall) :
    r.guardedSession calls = some (r.session calls) := by
  induction calls generalizing r with
  | nil => rfl
  | cons call calls ih =>
    obtain ⟨n, enough, moved⟩ := (Guards.call call).moves h
    have rest := ih (h.advance enough)
    rw [← moved] at rest
    exact Option.bind_eq_some_iff.mpr
      ⟨_, (Guards.call call).same h, Option.bind_eq_some_iff.mpr ⟨_, rest, rfl⟩⟩

end Reader

/-! ## What the next call does -/

namespace WireForm

variable {value : WireValue} {octets : Bytes}

/-- All forms of a value are of the same length. -/
theorem length_eq_size (h : WireForm value octets) : octets.length = value.size := by
  rw [← WireValue.length_of_wire h.wire, length_normalize h.length_roles]

end WireForm

namespace WireValue

variable {ty : WireType} {r r' : Reader}

/-- A value that has been read stands in the octets that have been read, and these alone tell it. -/
theorem read_run_eq_ok {value : WireValue} (single : ty.isBit = false)
    (ran : (read ty).run r = (.ok value, r')) :
    value.wireType = ty ∧ r' = r.advance value.size ∧
      ∀ other : Reader, other.rest.take value.size = r.rest.take value.size →
        (read ty).run other = (.ok value, other.advance value.size) := by
  obtain ⟨octets, rest, ⟨type, form⟩, front, rfl⟩ := (Reads.value single r value r').mp ran
  rw [form.length_eq_size]
  refine ⟨type, rfl, fun other same => ?_⟩
  have next : r.rest.take value.size = octets := by
    rw [front, List.take_left' form.length_eq_size]
  -- The same octets come next in the other payload, whatever is behind them.
  refine (Reads.value single other value _).mpr
    ⟨octets, other.rest.drop value.size, ⟨type, form⟩, ?_, by rw [form.length_eq_size]⟩
  rw [← next, ← same, List.take_append_drop]

/-- A number that is not there as a whole is left as it is. -/
theorem read_run_of_few {width : Nat} (fixed : ty.fixedWidth? = some width)
    (few : r.rest.length < width) : (read ty).run r = (.error r.framingError, r) := by
  have stopped := Read.number_run_of_lt few
  cases ty <;> cases fixed
  case octet | short | long | longlong | timestamp =>
    exact ExceptT.run_bind_of_error _ (ExceptT.run_bind_of_error _ stopped)

/-- A length stays read when too few octets follow it. -/
theorem read_run_of_prefixed {width n : Nat} (prefixed : ty.lengthPrefix? = some width)
    (short : ShortAt (CountedAwaits width) r.rest n) :
    (read ty).run r = (.error r.framingError, r.advance n) := by
  have stopped := Read.counted_run_of_shortAt short
  cases ty <;> cases prefixed
  case shortstr | longstr => exact ExceptT.run_bind_of_error _ stopped
  case table => exact ExceptT.run_bind_of_error _ (ExceptT.run_bind_of_error _ stopped)

/-- Where octets run out, nothing has been read but the length in front of them. -/
theorem read_run_of_shortAt {n : Nat} (short : ShortAt ty.Awaits r.rest n) :
    (read ty).run r = (.error r.framingError, r.advance n) ∧ (n = 0 ∨ ty.lengthPrefix? = some n) := by
  obtain ⟨part, needed, rest, next, front, few, rfl⟩ := shortAt_iff.mp short
  cases next with
  | number fixed => exact ⟨read_run_of_few fixed (by rwa [front]), .inl rfl⟩
  | counted prefixed next =>
    refine ⟨read_run_of_prefixed prefixed ((WireType.shortAt_counted prefixed).mp short), ?_⟩
    cases next with
    | number => exact .inl rfl
    | octets => exact .inr (by rwa [length_encode])

/-- A call fails where octets run out, or for a malformed table, which has been read. -/
theorem read_run_eq_error {e : FrameError} (single : ty.isBit = false)
    (ran : (read ty).run r = (.error e, r')) :
    (∃ n, ShortAt ty.Awaits r.rest n) ∨
      ∃ body rest source, ty = .table ∧ body.length < capacity 4 ∧
        r.rest = encode 4 body.length ++ body ++ rest ∧ FieldTable.decode body = .error source ∧
        e = .table r.name source ∧ r' = r.advance (4 + body.length) := by
  obtain ⟨flaw, flawed, rfl⟩ := (Refuses.value single r e).mp (congrArg Prod.fst ran)
  generalize octets : r.rest = rest at flawed
  cases flawed with
  | short short => exact .inl ⟨_, short⟩
  | malformed isTable bound refused =>
    subst isTable
    have stopped : (read .table).run r = _ :=
      ExceptT.run_bind_of_error _ (Read.table_run_of_malformed octets bound refused)
    cases ran.symm.trans stopped
    exact .inr ⟨_, _, _, rfl, bound, rfl, refused, rfl, rfl⟩

end WireValue

/-- What becomes of a reader by the next call. A value that is returned has been read and nothing else,
and only the octets that have been read matter for it: any reader with these octets next returns it. Where
octets are missing, the payload as a whole is to blame, and nothing has been read but the length in front
of them. Otherwise only a table can fail, for its body, which has been read. A payload has been read to its
end exactly when the position is there. -/
structure Reader.Effects (r : Reader) : Prop where
  returned : ∀ ty value r', ty.isBit = false → (WireValue.read ty).run r = (.ok value, r') →
    value.wireType = ty ∧ r' = r.advance value.size ∧
      ∀ other : Reader, other.rest.take value.size = r.rest.take value.size →
        (WireValue.read ty).run other = (.ok value, other.advance value.size)
  missing : ∀ ty n, ShortAt ty.Awaits r.rest n →
    (WireValue.read ty).run r = (.error (.framing r.name r.payload), r.advance n) ∧
      (n = 0 ∨ ty.lengthPrefix? = some n)
  failed : ∀ ty e r', ty.isBit = false → (WireValue.read ty).run r = (.error e, r') →
    (∃ n, ShortAt ty.Awaits r.rest n) ∨
      ∃ body rest source, ty = .table ∧ body.length < capacity 4 ∧
        r.rest = encode 4 body.length ++ body ++ rest ∧ FieldTable.decode body = .error source ∧
        e = .table r.name source ∧ r' = r.advance (4 + body.length)
  finished : (Read.finish.run r).1 = .ok () ↔ r.pos = r.payload.length
  unfinished : r.pos ≠ r.payload.length →
    Read.finish.run r = (.error (.framing r.name r.payload), r)

theorem Reader.effects (r : Reader) : r.Effects where
  returned _ _ _ := WireValue.read_run_eq_ok
  missing _ _ := WireValue.read_run_of_shortAt
  failed _ _ _ := WireValue.read_run_eq_error
  finished := by
    rw [Read.run_fst_eq_ok]
    simp only [Read.finish_run_eq_ok, exists_eq_right]
  unfinished h := by
    rw [Read.finish_run, if_neg h]
    rfl

/-! ## Whole sessions -/

/-- A session over a payload never panics, whatever is asked in it and whatever fails. It keeps the
payload and the name of its owner, its position stays within the payload, and more calls go on from there
and do not lead back. The next of them has the effects of its kind and no other ones. -/
theorem Reader.sessions_stay_within (name : String) (payload : Bytes) (calls : List ReadCall) :
    ∃ answers r, (start name payload).session calls = (answers, r) ∧
      (start name payload).guardedSession calls = some (answers, r) ∧
      r.name = name ∧ r.payload = payload ∧
      r.pos ≤ payload.length ∧ r.pos + r.remaining = payload.length ∧
      (∀ more, (start name payload).session (calls ++ more) =
          (answers ++ (r.session more).1, (r.session more).2) ∧ r.pos ≤ (r.session more).2.pos) ∧
      r.Effects := by
  have within := within_start name payload
  obtain ⟨n, enough, moved⟩ := session_moves within calls
  have inside := within.advance enough
  have ran : (start name payload).session calls =
      (((start name payload).session calls).1, (start name payload).advance n) := Prod.ext rfl moved
  refine ⟨_, _, ran, ?_, rfl, rfl, inside, inside.pos_add_remaining, fun more => ⟨?_, ?_⟩, effects _⟩
  · rw [guardedSession_eq within, ← ran]
  · rw [session_append, moved]
  · obtain ⟨k, -, forward⟩ := session_moves inside more
    rw [forward]
    exact Nat.le_add_right _ _

namespace QueueBind

/-- A string of two letters, then a string that should have five but has only two. -/
def payload : Bytes :=
  [2, 0x68, 0x69, 5, 0x61, 0x62]

def calls : List ReadCall :=
  [.value .shortstr rfl, .value .long rfl, .value .shortstr rfl, .remaining, .value .short rfl]

/-- Two calls fail: the first reads nothing, for there is no room for its number, and the second reads
the length of its string. The letters behind the length are then read as a number. -/
theorem cut_string_leaves_its_letters :
    (Reader.start "queue.bind" payload).session calls =
        ([.ok (.value (.shortstr [0x68, 0x69])), .error (.framing "queue.bind" payload),
          .error (.framing "queue.bind" payload), .ok (.remaining 2), .ok (.value (.short 0x6162))],
          ⟨"queue.bind", payload, 6⟩) ∧
      (Reader.start "queue.bind" payload).guardedSession calls =
        some ((Reader.start "queue.bind" payload).session calls) ∧
      (Read.finish.run ⟨"queue.bind", payload, 6⟩).1 = .ok () ∧
      (WireValue.read .shortstr).run ⟨"queue.bind", payload, 3⟩ =
        (.error (.framing "queue.bind" payload), ⟨"queue.bind", payload, 4⟩) := by
  obtain ⟨answers, r, ran, guarded, -, -, -, -, -, effects⟩ :=
    Reader.sessions_stay_within "queue.bind" payload calls
  obtain ⟨_, between, before, -, -, -, -, -, -, next⟩ :=
    Reader.sessions_stay_within "queue.bind" payload (calls.take 2)
  cases before
  have short : ShortAt WireType.shortstr.Awaits (encode 1 5 ++ [0x61, 0x62]) 1 :=
    .of_append (.counted rfl (.octets (by decide))) (by decide)
  refine ⟨rfl, ran ▸ guarded, ?_, (next.missing .shortstr 1 short).1⟩
  cases ran
  exact effects.finished.mpr rfl

end QueueBind

end WireProtocol
