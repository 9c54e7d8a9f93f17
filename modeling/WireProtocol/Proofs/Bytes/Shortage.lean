import WireProtocol.Bytes.BigEndian

/-!
# Octets that run out

* `ShortAt`: behind so many octets, fewer are left than what comes next takes.
* `CountedAwaits`: what comes next in octets behind their number.
-/

namespace WireProtocol

/-- Fewer octets are left behind the first `n` than what comes next takes. What comes next, and how
many octets it takes, depends on those in front of it. -/
def ShortAt (awaits : Bytes → Nat → Prop) (octets : Bytes) (n : Nat) : Prop :=
  n ≤ octets.length ∧ ∃ needed, awaits (octets.take n) needed ∧ octets.length - n < needed

/-- What comes next in octets behind their number: the number itself, or as many octets as it
says. -/
inductive CountedAwaits (width : Nat) : Bytes → Nat → Prop where
  | number : CountedAwaits width [] width
  | octets {n : Nat} (bound : n < BigEndian.capacity width) :
    CountedAwaits width (BigEndian.encode width n) n

section

variable {awaits awaits' : Bytes → Nat → Prop} {octets front part rest : Bytes} {n needed : Nat}

/-- The octets that have been read, and the rest that falls short. -/
theorem shortAt_iff :
    ShortAt awaits octets n ↔ ∃ part needed rest, awaits part needed ∧ octets = part ++ rest ∧
      rest.length < needed ∧ n = part.length := by
  constructor
  · rintro ⟨within, needed, next, short⟩
    refine ⟨octets.take n, needed, octets.drop n, next, (List.take_append_drop n octets).symm, ?_, ?_⟩
    · rwa [List.length_drop]
    · exact (List.length_take_of_le within).symm
  · rintro ⟨part, needed, rest, next, rfl, short, rfl⟩
    refine ⟨List.length_append ▸ Nat.le_add_right _ _, needed, ?_, ?_⟩
    · rwa [List.take_left]
    · rwa [List.length_append, Nat.add_sub_cancel_left]

theorem ShortAt.congr (same : ∀ part needed, awaits part needed ↔ awaits' part needed) :
    ShortAt awaits octets n ↔ ShortAt awaits' octets n := by
  unfold ShortAt
  simp only [same]

theorem ShortAt.of_append (next : awaits part needed) (short : rest.length < needed) :
    ShortAt awaits (part ++ rest) part.length :=
  shortAt_iff.mpr ⟨part, needed, rest, next, rfl, short, rfl⟩

/-- Octets that fall short at once. -/
theorem ShortAt.of_nil (next : awaits [] needed) (short : rest.length < needed) :
    ShortAt awaits rest 0 :=
  .of_append next short

/-- Octets in front move the place where the others run out. -/
theorem ShortAt.behind (h : ShortAt awaits octets n)
    (next : ∀ part needed, awaits part needed → awaits' (front ++ part) needed) :
    ShortAt awaits' (front ++ octets) (front.length + n) := by
  obtain ⟨part, needed, rest, awaited, rfl, short, rfl⟩ := shortAt_iff.mp h
  rw [← List.append_assoc, ← List.length_append]
  exact .of_append (next part needed awaited) short

end

end WireProtocol
