import WireProtocol.Bytes.BigEndian
import WireProtocol.Table.Error

/-!
# Cursors over a container body

* `Cursor`: the offset reached in a body and the octets that follow it.
* `Cursor.take`, `Cursor.takePrefixed`: the steps of a decoder. A step past the end names the
  offset at which the missing octets should begin.
* `Cursor.take_length`: what a step takes and what it leaves make up what there was.
-/

namespace WireProtocol

/-- A place in a container body. -/
structure Cursor where
  pos : Nat
  rest : Bytes
deriving DecidableEq, Repr

namespace Cursor

/-- The beginning of a body. -/
def start (body : Bytes) : Cursor :=
  ⟨0, body⟩

/-- The next `n` octets. -/
def take (n : Nat) (c : Cursor) : Except TableError (Bytes × Cursor) :=
  let taken := c.rest.take n
  if taken.length = n then
    .ok (taken, ⟨c.pos + n, c.rest.drop n⟩)
  else
    .error (.truncated c.pos)

/-- A big-endian number of `width` octets. -/
def takeNat (width : Nat) (c : Cursor) : Except TableError (Nat × Cursor) := do
  let (octets, c) ← c.take width
  return (BigEndian.decode octets, c)

/-- A length of `width` octets and then as many octets as it says. -/
def takePrefixed (width : Nat) (c : Cursor) : Except TableError (Bytes × Cursor) := do
  let (length, c) ← c.takeNat width
  c.take length

/-- A step takes what was asked for, from the front. -/
theorem take_eq_ok {n : Nat} {c c' : Cursor} {octets : Bytes} :
    c.take n = .ok (octets, c') ↔
      octets.length = n ∧ c.rest = octets ++ c'.rest ∧ c'.pos = c.pos + n := by
  unfold take
  constructor
  · intro h
    simp only at h
    split at h
    · rename_i length
      cases h
      exact ⟨length, (List.take_append_drop n c.rest).symm, rfl⟩
    · cases h
  · rintro ⟨length, parts, pos⟩
    have taken : c.rest.take n = octets := by rw [parts, List.take_left' length]
    have left : c.rest.drop n = c'.rest := by rw [parts, List.drop_left' length]
    simp only [taken, left, length, if_true]
    cases c'
    simp_all

/-- What a step takes and what it leaves make up what there was. -/
theorem take_length {n : Nat} {c c' : Cursor} {octets : Bytes}
    (h : c.take n = .ok (octets, c')) : octets.length + c'.rest.length = c.rest.length := by
  obtain ⟨-, parts, -⟩ := take_eq_ok.mp h
  simp [parts]

theorem takeNat_length {width n : Nat} {c c' : Cursor} (h : c.takeNat width = .ok (n, c')) :
    width + c'.rest.length = c.rest.length := by
  unfold takeNat at h
  cases taken : c.take width with
  | error e => simp [taken, bind, Except.bind] at h
  | ok r =>
    obtain ⟨octets, c''⟩ := r
    simp only [taken, bind, Except.bind, pure, Except.pure, Except.ok.injEq, Prod.mk.injEq] at h
    obtain ⟨-, rfl⟩ := h
    have := take_length taken
    have := (take_eq_ok.mp taken).1
    omega

/-- A prefixed step leaves less than there was by its length octets and its body. -/
theorem takePrefixed_length {width : Nat} {c c' : Cursor} {octets : Bytes}
    (h : c.takePrefixed width = .ok (octets, c')) :
    width + octets.length + c'.rest.length = c.rest.length := by
  unfold takePrefixed at h
  cases taken : c.takeNat width with
  | error e => simp [taken, bind, Except.bind] at h
  | ok r =>
    obtain ⟨n, c''⟩ := r
    simp only [taken, bind, Except.bind] at h
    have := takeNat_length taken
    have := take_length h
    omega

end Cursor

end WireProtocol
