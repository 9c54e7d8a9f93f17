import WireProtocol.Bytes.BigEndian

/-!
# Roles of octets

A reader takes more than a writer gives: the bits of a shared octet that no value owns may be set,
and a truth value may be any octet. What an octet of a payload is there for says which octet is
written in its place.

* `OctetRole.normal`: the octet that is written where one has been read.
* `OctetRole.normal_eq_self_iff`: which octets are written as they have been read.
* `normalize`: the same for all octets of a payload, each in its role.
-/

namespace WireProtocol

/-- What an octet is there for: all of its bits count, or only so many from the least significant
one on, or only whether it is zero. -/
inductive OctetRole where
  | whole
  | flags (count : Nat)
  | truth
deriving DecidableEq, Repr

namespace OctetRole

/-- The octet that is written where `octet` has been read. -/
def normal : OctetRole → UInt8 → UInt8
  | whole, octet => octet
  | flags count, octet => UInt8.ofNat (octet.toNat % (1 <<< count))
  | truth, octet => if octet = 0 then 0 else 1

/-- Nothing of the octet is lost in its role. -/
def IsNormal : OctetRole → UInt8 → Prop
  | whole, _ => True
  | flags count, octet => ∀ place, count ≤ place → octet.toNat.testBit place = false
  | truth, octet => octet = 0 ∨ octet = 1

theorem toNat_normal_flags (count : Nat) (octet : UInt8) :
    ((flags count).normal octet).toNat = octet.toNat % 1 <<< count := by
  have bound : octet.toNat % 1 <<< count < UInt8.size :=
    Nat.lt_of_le_of_lt (Nat.mod_le _ _) octet.toNat_lt
  exact UInt8.toNat_ofNat_of_lt' bound

/-- Of shared bits only those below the count stay. -/
theorem testBit_normal_flags (count : Nat) (octet : UInt8) (place : Nat) :
    ((flags count).normal octet).toNat.testBit place =
      (decide (place < count) && octet.toNat.testBit place) := by
  rw [toNat_normal_flags, Nat.one_shiftLeft, Nat.testBit_mod_two_pow]

theorem normal_eq_self_iff {role : OctetRole} {octet : UInt8} :
    role.normal octet = octet ↔ role.IsNormal octet := by
  cases role with
  | whole => exact ⟨fun _ => trivial, fun _ => rfl⟩
  | flags count =>
    constructor
    · intro same place high
      rw [← same, testBit_normal_flags]
      simp [Nat.not_lt.mpr high]
    · intro clear
      apply UInt8.toNat_inj.mp
      apply Nat.eq_of_testBit_eq
      intro place
      rw [testBit_normal_flags]
      by_cases low : place < count
      · simp [low]
      · simp [low, clear place (Nat.not_lt.mp low)]
  | truth =>
    simp only [normal, IsNormal]
    split
    · simp [*]
    · simp [*, eq_comm]

end OctetRole

/-- The octets of a payload as they are written, each in its role. -/
def normalize (roles : List OctetRole) (octets : Bytes) : Bytes :=
  List.zipWith OctetRole.normal roles octets

@[simp] theorem normalize_nil : normalize [] [] = [] := rfl

theorem normalize_append {roles others : List OctetRole} {octets more : Bytes}
    (same : roles.length = octets.length) :
    normalize (roles ++ others) (octets ++ more) = normalize roles octets ++ normalize others more :=
  List.zipWith_append same

theorem length_normalize {roles : List OctetRole} {octets : Bytes}
    (same : roles.length = octets.length) : (normalize roles octets).length = octets.length := by
  rw [normalize, List.length_zipWith, same, Nat.min_self]

/-- Octets that count as a whole stay as they are. -/
theorem normalize_replicate {count : Nat} {octets : Bytes} (same : count = octets.length) :
    normalize (List.replicate count .whole) octets = octets := by
  subst same
  induction octets with
  | nil => rfl
  | cons octet octets ih =>
    rw [List.length_cons, List.replicate_succ, normalize, List.zipWith_cons_cons]
    exact congrArg (octet :: ·) ih

/-- A payload is written as it has been read exactly when each octet is normal in its role. -/
theorem normalize_eq_self_iff {roles : List OctetRole} {octets : Bytes}
    (same : roles.length = octets.length) :
    normalize roles octets = octets ↔
      ∀ role octet, (role, octet) ∈ roles.zip octets → role.IsNormal octet := by
  induction roles generalizing octets with
  | nil =>
    rw [List.eq_nil_of_length_eq_zero same.symm]
    simp
  | cons role roles ih =>
    cases octets with
    | nil => simp at same
    | cons octet octets =>
      have rest := @ih octets (by simpa using same)
      rw [normalize, List.zipWith_cons_cons, List.cons.injEq, OctetRole.normal_eq_self_iff]
      change _ ∧ normalize roles octets = octets ↔ _
      rw [rest, List.zip_cons_cons]
      constructor
      · rintro ⟨first, others⟩ role' octet' member
        rcases List.mem_cons.mp member with head | tail
        · cases head
          exact first
        · exact others role' octet' tail
      · intro all
        exact ⟨all role octet List.mem_cons_self,
          fun role' octet' member => all role' octet' (List.mem_cons_of_mem _ member)⟩

end WireProtocol
