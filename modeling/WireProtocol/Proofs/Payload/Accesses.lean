import WireProtocol.Proofs.Payload.Stability

/-!
# Accesses to a payload

A reading step looks at a payload in two ways only: it counts the octets that are left, which is a
difference, and it cuts a range out of the payload. Where the difference is below zero, or the range is
not inside the payload, the step panics, and there is no outcome.

* `Reader.Within`: the position is not behind the end of the payload.
* `GuardedRead`: a reading step that may panic. `GuardedRead.remaining` does so behind the end of the
  payload, and `GuardedRead.slice` for a range that is not inside of it.
* `GuardedRead.take` to `GuardedRead.table`: the steps for the primitive encodings, with these accesses.
* `Guards`: from a position within the payload, the guarded step does what the step does, and this leads
  to a position within the payload that is not in front of the first.
* `Guards.bind`, `Guards.take` to `Guards.table`: the steps are guarded, one by one.
-/

namespace WireProtocol

namespace Reader

/-- The position is not behind the end of the payload. -/
def Within (r : Reader) : Prop :=
  r.pos ≤ r.payload.length

theorem within_start (name : String) (payload : Bytes) : (start name payload).Within :=
  Nat.zero_le _

variable {r : Reader} {n : Nat}

/-- What has been read and what is left make up the payload. -/
theorem Within.pos_add_remaining (h : r.Within) : r.pos + r.remaining = r.payload.length :=
  Nat.add_sub_of_le h

theorem Within.advance (h : r.Within) (enough : n ≤ r.remaining) : (r.advance n).Within := by
  have all := h.pos_add_remaining
  change r.pos + n ≤ r.payload.length
  omega

theorem remaining_advance (r : Reader) (n : Nat) : (r.advance n).remaining = r.remaining - n :=
  (Nat.sub_sub ..).symm

end Reader

/-- A reading step that may panic. It then has no outcome, and there is no reader after it. -/
abbrev GuardedRead (α : Type) := ExceptT FrameError (StateT Reader Option) α

namespace GuardedRead

/-- The number of octets still to be read. Behind the end of the payload the difference panics. -/
def remaining : GuardedRead Nat := fun r =>
  if r.pos ≤ r.payload.length then some (.ok (r.payload.length - r.pos), r) else none

/-- The octets of the payload from one position to another. A range that runs backwards, or past the
end of the payload, panics. -/
def slice (first last : Nat) : GuardedRead Bytes := fun r =>
  if first ≤ last ∧ last ≤ r.payload.length then
    some (.ok ((r.payload.take last).drop first), r)
  else
    none

/-- The next `n` octets. -/
def take (n : Nat) : GuardedRead Bytes := do
  if n ≤ (← remaining) then
    let r ← get
    let octets ← slice r.pos (r.pos + n)
    set (r.advance n)
    return octets
  else
    throw (← get).framingError

/-- A big-endian number of `width` octets. -/
def number (width : Nat) : GuardedRead Nat := do
  return BigEndian.decode (← take width)

/-- A length of `width` octets and as many octets as it says. -/
def counted (width : Nat) : GuardedRead Bytes := do
  take (← number width)

/-- An integer of one octet. -/
def octet : GuardedRead UInt8 := do
  return UInt8.ofNat (← number 1)

/-- An integer of two octets. -/
def short : GuardedRead UInt16 := do
  return UInt16.ofNat (← number 2)

/-- An integer of four octets. -/
def long : GuardedRead UInt32 := do
  return UInt32.ofNat (← number 4)

/-- An integer of eight octets. -/
def longlong : GuardedRead UInt64 := do
  return UInt64.ofNat (← number 8)

/-- A table behind its length in four octets. -/
def table : GuardedRead FieldTable := do
  let body ← counted 4
  match FieldTable.decode body with
  | .ok table => return table
  | .error source => throw (.table (← get).name source)

/-- Behind the end of a payload, to read no octets is to panic as well. -/
example : take 0 ⟨"queue.bind", [1], 2⟩ = none := rfl

end GuardedRead

/-- From a position within the payload, the guarded step does what the step does: it does not panic.
It moves forward by no more octets than there are. -/
structure Guards {α : Type} (guarded : GuardedRead α) (step : Read α) : Prop where
  same : ∀ {r : Reader}, r.Within → guarded r = some (step.run r)
  moves : ∀ {r : Reader}, r.Within → ∃ n ≤ r.remaining, (step.run r).2 = r.advance n

namespace Guards

variable {α β : Type} {guarded : GuardedRead α} {step : Read α}

/-- A step that reads nothing. -/
theorem of_run (outcome : Reader → Except FrameError α) (same : ∀ r, guarded r = some (outcome r, r))
    (h : ∀ r, step.run r = (outcome r, r)) : Guards guarded step where
  same {r} _ := by rw [same, h]
  moves {r} _ := ⟨0, Nat.zero_le _, by rw [h]; rfl⟩

theorem pure (value : α) : Guards (Pure.pure value) (Pure.pure value) :=
  .of_run (fun _ => .ok value) (fun _ => rfl) fun _ => rfl

/-- The second of two steps starts from where the first has led. -/
theorem bind {guardedNext : α → GuardedRead β} {next : α → Read β} (h : Guards guarded step)
    (hnext : ∀ value, Guards (guardedNext value) (next value)) :
    Guards (guarded >>= guardedNext) (step >>= next) where
  same {r} within := by
    have first := h.same within
    obtain ⟨n, enough, moved⟩ := h.moves within
    rcases ran : step.run r with ⟨e | value, r'⟩
    · rw [ran] at first
      rw [ExceptT.bind_of_some_error first]
      exact congrArg some (ExceptT.run_bind_of_error next ran).symm
    · rw [ran] at first moved
      obtain rfl : r' = r.advance n := moved
      rw [ExceptT.bind_of_some_ok first, (hnext value).same (within.advance enough)]
      exact congrArg some (ExceptT.run_bind_of_ok next ran).symm
  moves {r} within := by
    obtain ⟨n, enough, moved⟩ := h.moves within
    rcases ran : step.run r with ⟨e | value, r'⟩
    · rw [ran] at moved
      exact ⟨n, enough, (congrArg Prod.snd (ExceptT.run_bind_of_error next ran)).trans moved⟩
    · rw [ran] at moved
      obtain rfl : r' = r.advance n := moved
      obtain ⟨more, enough', moved'⟩ := (hnext value).moves (within.advance enough)
      rw [Reader.remaining_advance] at enough'
      refine ⟨n + more, by omega, ?_⟩
      rw [← Reader.advance_advance, ← moved']
      exact congrArg Prod.snd (ExceptT.run_bind_of_ok next ran)

theorem map (h : Guards guarded step) (f : α → β) :
    Guards (guarded >>= fun value => Pure.pure (f value))
      (step >>= fun value => Pure.pure (f value)) :=
  h.bind fun value => pure (f value)

/-! ## Primitive encodings -/

theorem remaining : Guards GuardedRead.remaining (do return (← get).remaining) where
  same within := if_pos within
  moves _ := ⟨0, Nat.zero_le _, rfl⟩

/-- The range of the next octets is inside the payload as soon as there are enough of them. -/
theorem slice_run {r : Reader} {n : Nat} (within : r.Within) (enough : n ≤ r.remaining) :
    GuardedRead.slice r.pos (r.pos + n) r = some (.ok (r.rest.take n), r) := by
  have all := within.pos_add_remaining
  have inside : r.pos ≤ r.pos + n ∧ r.pos + n ≤ r.payload.length := by omega
  have cut : (r.payload.take (r.pos + n)).drop r.pos = r.rest.take n := by
    rw [List.drop_take, Nat.add_sub_cancel_left]
    rfl
  rw [← cut]
  exact if_pos inside

/-- The octets that are left are counted before the range is cut out, so that it is inside the payload. -/
theorem take (n : Nat) : Guards (GuardedRead.take n) (Read.take n) where
  same {r} within := by
    have left : GuardedRead.remaining r = some (.ok r.remaining, r) := remaining.same within
    rw [GuardedRead.take, ExceptT.bind_of_some_ok left]
    by_cases enough : n ≤ r.remaining
    · have ran : (Read.take n).run r = (.ok (r.rest.take n), r.advance n) := if_pos enough
      have here : (get : GuardedRead Reader) r = some (.ok r, r) := rfl
      rw [if_pos enough, ran]
      refine (ExceptT.bind_of_some_ok here _).trans ?_
      exact ExceptT.bind_of_some_ok (slice_run within enough) _
    · rw [if_neg enough, Read.take_run_of_lt (Nat.not_le.mp enough)]
      rfl
  moves {r} _ := by
    by_cases enough : n ≤ r.remaining
    · have ran : (Read.take n).run r = (.ok (r.rest.take n), r.advance n) := if_pos enough
      exact ⟨n, enough, congrArg Prod.snd ran⟩
    · exact ⟨0, Nat.zero_le _, congrArg Prod.snd (Read.take_run_of_lt (Nat.not_le.mp enough))⟩

theorem number (width : Nat) : Guards (GuardedRead.number width) (Read.number width) :=
  (take width).map BigEndian.decode

theorem counted (width : Nat) : Guards (GuardedRead.counted width) (Read.counted width) :=
  (number width).bind take

theorem octet : Guards GuardedRead.octet Read.octet :=
  (number 1).map UInt8.ofNat

theorem short : Guards GuardedRead.short Read.short :=
  (number 2).map UInt16.ofNat

theorem long : Guards GuardedRead.long Read.long :=
  (number 4).map UInt32.ofNat

theorem longlong : Guards GuardedRead.longlong Read.longlong :=
  (number 8).map UInt64.ofNat

/-- A malformed body has been read before it is looked into. -/
theorem table : Guards GuardedRead.table Read.table := by
  refine (counted 4).bind fun body => ?_
  cases FieldTable.decode body with
  | ok table => exact pure table
  | error source => exact .of_run (fun r => .error (.table r.name source)) (fun _ => rfl) fun _ => rfl

end Guards

end WireProtocol
