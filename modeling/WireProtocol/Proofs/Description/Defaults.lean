import Mathlib.Data.Nat.Digits.Defs
import WireProtocol.Description.Load

/-!
# Defaults in documents

* `Json.NumberLiteral.IsUnsigned`: the number is written as a natural number of 64 bits.
* `Json.Number.exists_natural_iff`: the numbers that are written so are those that are kept exactly.
* `Json.Tree.SpellsDefault`, `Json.Value.IsDefault`: what can be written as a default, and what a
  default can be.
* `Json.Value.isDefault_iff`: the first are the documents of the second.
* `FieldOutline.Tells`, `FieldOutline.tells`: what the document of a field tells about its domain and
  its default. A null is as good as nothing.
-/

namespace WireProtocol

namespace Json

/-! ## Numbers -/

theorem le_foldl_digits (digits : List Nat) (significand : Nat) :
    significand ≤ digits.foldl (fun value digit => value * 10 + digit) significand := by
  induction digits generalizing significand with
  | nil => exact Nat.le_refl significand
  | cons digit digits ih =>
    have more := ih (significand * 10 + digit)
    rw [List.foldl_cons]
    omega

/-- A significand takes in all digits exactly when the number that they spell fits it. -/
theorem extend_eq_iff {digits : List Nat} {significand value : Nat}
    (small : significand < significandBound) :
    extend significand digits = (value, []) ↔
      value = digits.foldl (fun value digit => value * 10 + digit) significand ∧
        value < significandBound := by
  induction digits generalizing significand with
  | nil =>
    rw [extend, List.foldl_nil, Prod.mk.injEq, and_iff_left rfl, eq_comm]
    exact ⟨fun same => ⟨same, same ▸ small⟩, And.left⟩
  | cons digit digits ih =>
    rw [extend, List.foldl_cons]
    by_cases fits : significand * 10 + digit < significandBound
    · rw [if_pos fits, ih fits]
    · rw [if_neg fits]
      refine iff_of_false nofun fun ⟨same, small⟩ => fits ?_
      have more := le_foldl_digits digits (significand * 10 + digit)
      omega

theorem digitsValue?_eq_some_iff {digits : List Nat} {value : Nat} :
    digitsValue? digits = some value ↔
      value = Nat.ofDigits 10 digits.reverse ∧ value < UInt64.size := by
  have spelled : Nat.ofDigits 10 digits.reverse =
      digits.foldl (fun value digit => value * 10 + digit) 0 := by
    rw [Nat.ofDigits_eq_foldr, List.foldr_reverse]
    simp only [Nat.cast_id, Nat.mul_comm, Nat.add_comm]
  change _ ↔ _ ∧ value < significandBound
  rw [spelled, ← extend_eq_iff (by decide), digitsValue?]
  cases extend 0 digits with
  | mk taken ignored => cases ignored <;> simp

/-- The number is written as a natural number of 64 bits: with no sign, no fraction and no exponent. -/
structure NumberLiteral.IsUnsigned (literal : NumberLiteral) : Prop where
  positive : literal.negative = false
  noFraction : literal.fraction = []
  noExponent : literal.exponent = none
  fits : Nat.ofDigits 10 literal.whole.reverse < UInt64.size

theorem NumberLiteral.isUnsigned_iff {literal : NumberLiteral} :
    literal.IsUnsigned ↔ literal.negative = false ∧ ∃ value, literal.whole? = some value := by
  have whole : literal.isWhole = true ↔ literal.fraction = [] ∧ literal.exponent = none := by
    simp [isWhole]
  rw [whole?]
  constructor
  · rintro ⟨positive, noFraction, noExponent, fits⟩
    rw [if_pos (whole.mpr ⟨noFraction, noExponent⟩)]
    exact ⟨positive, _, digitsValue?_eq_some_iff.mpr ⟨rfl, fits⟩⟩
  · rintro ⟨positive, value, found⟩
    split at found
    · next here =>
      obtain ⟨noFraction, noExponent⟩ := whole.mp here
      obtain ⟨rfl, fits⟩ := digitsValue?_eq_some_iff.mp found
      exact ⟨positive, noFraction, noExponent, fits⟩
    · cases found

namespace Number

theorem ne_natural_of_float? {literal : NumberLiteral} {number : Number}
    (h : float? literal = some number) (value : UInt64) : number ≠ natural value := by
  obtain ⟨f, -, rfl⟩ := Option.map_eq_some_iff.mp h
  exact nofun

/-- A number is a natural number of 64 bits exactly when it is written as one. -/
theorem exists_natural_iff {literal : NumberLiteral} {number : Number}
    (h : ofLiteral? literal = some number) :
    (∃ value, number = natural value) ↔ literal.IsUnsigned := by
  rw [NumberLiteral.isUnsigned_iff]
  unfold ofLiteral? at h
  split at h
  · next none =>
    exact iff_of_false (fun ⟨value, same⟩ => ne_natural_of_float? h value same)
      fun ⟨_, value, found⟩ => nomatch none.symm.trans found
  · next whole found =>
    split at h
    · next positive =>
      cases h
      exact iff_of_true ⟨_, rfl⟩ ⟨by simpa using positive, whole, found⟩
    · next negative =>
      refine iff_of_false (fun ⟨value, same⟩ => ?_) fun ⟨positive, _⟩ => negative (by simp [positive])
      split at h
      · cases h
        cases same
      · exact ne_natural_of_float? h value same

end Number

/-! ## Defaults -/

/-- The document can be written as a default: it is a truth value, a natural number of 64 bits, a text
or the empty object. -/
inductive Tree.SpellsDefault : Tree → Prop
  | bool (value : Bool) : SpellsDefault (.bool value)
  | number {literal : NumberLiteral} (unsigned : literal.IsUnsigned) : SpellsDefault (.number literal)
  | text (value : String) : SpellsDefault (.text (some value))
  | emptyObject : SpellsDefault (.object [])

namespace Value

/-- The value can be that of a default. -/
inductive IsDefault : Value → Prop
  | bool (value : Bool) : IsDefault (.bool value)
  | natural (value : UInt64) : IsDefault (.number (.natural value))
  | text (value : String) : IsDefault (.text value)
  | emptyObject : IsDefault (.object [])

theorem sortMembers_eq_nil {members : List (String × Value)} :
    sortMembers members = [] ↔ members = [] := by
  have last (members : List (String × Value)) : lastOfEach members = [] ↔ members = [] := by
    induction members with
    | nil => exact iff_of_true rfl rfl
    | cons a members ih =>
      cases members with
      | nil => exact iff_of_false nofun nofun
      | cons b members =>
        rw [lastOfEach]
        split
        · rw [ih]
          exact iff_of_false nofun nofun
        · exact iff_of_false nofun nofun
  rw [sortMembers, last, ← List.length_eq_zero_iff, List.length_mergeSort, List.length_eq_zero_iff]

/-- A document spells a default exactly when its value is one. -/
theorem isDefault_iff {levels : Nat} {tree : Tree} {value : Value}
    (h : ofTree? levels tree = some value) : value.IsDefault ↔ tree.SpellsDefault := by
  cases tree with
  | null =>
    rw [ofTree?] at h
    cases h
    exact iff_of_false nofun nofun
  | bool b =>
    rw [ofTree?] at h
    cases h
    exact iff_of_true (.bool b) (.bool b)
  | number literal =>
    rw [ofTree?] at h
    obtain ⟨number, made, rfl⟩ := Option.map_eq_some_iff.mp h
    have kept := Number.exists_natural_iff made
    constructor
    · intro own
      cases own with
      | natural n => exact .number (kept.mp ⟨n, rfl⟩)
    · intro spelled
      cases spelled with
      | number unsigned =>
        obtain ⟨n, rfl⟩ := kept.mpr unsigned
        exact .natural n
  | text t =>
    rw [ofTree?] at h
    obtain ⟨own, rfl, rfl⟩ := Option.map_eq_some_iff.mp h
    exact iff_of_true (.text own) (.text own)
  | array items =>
    rw [ofTree?] at h
    split at h
    · cases h
    · obtain ⟨values, -, rfl⟩ := Option.map_eq_some_iff.mp h
      exact iff_of_false nofun nofun
  | object members =>
    rw [ofTree?] at h
    split at h
    · cases h
    · obtain ⟨values, read, rfl⟩ := Option.map_eq_some_iff.mp h
      cases members with
      | nil =>
        rw [ofMembers?] at read
        cases read
        rw [sortMembers_eq_nil.mpr rfl]
        exact iff_of_true .emptyObject .emptyObject
      | cons member members =>
        obtain ⟨name, item⟩ := member
        rw [ofMembers?] at read
        simp only [bind, Option.bind_eq_some_iff] at read
        obtain ⟨name, -, value, -, others, -, read⟩ := read
        cases read
        refine iff_of_false (fun own => ?_) nofun
        generalize none : sortMembers _ = sorted at own
        cases own
        cases sortMembers_eq_nil.mp none

end Value

end Json

theorem DefaultValue.isSome_ofJson?_iff {value : Json.Value} :
    (DefaultValue.ofJson? value).isSome = true ↔ value.IsDefault := by
  constructor
  · intro some
    unfold ofJson? at some
    split at some
    · exact .bool _
    · exact .natural _
    · exact .text _
    · exact .emptyObject
    · cases some
  · intro own
    cases own <;> rfl

/-! ## Fields -/

namespace Json

/-- Nothing is written, or a null. -/
def IsNull (written : Option Tree) : Prop :=
  written = none ∨ written = some .null

theorem nullable?_eq_some_iff {α : Type} {read? : Tree → Option α} {written : Option Tree}
    {value : Option α} : nullable? read? written = some value ↔
      IsNull written ∧ value = none ∨
        ∃ tree a, written = some tree ∧ tree ≠ .null ∧ read? tree = some a ∧ value = some a := by
  unfold nullable? IsNull
  split
  · simp [eq_comm]
  · next tree full =>
    have other : tree ≠ .null := full
    simp [other, eq_comm]
  · simp [eq_comm]

end Json

namespace FieldOutline

open Json (Tree IsNull)

/-- What the document of a field tells: its domain, its type and its default are those that are
written and not null. -/
structure Tells (f : FieldOutline) (typeName domain default : Option Tree) : Prop where
  typed : f.typeName = none ↔ IsNull typeName
  named : f.domainName = none ↔ IsNull domain
  defaulted : f.default = none ↔ IsNull default
  supported : (∀ value, f.default = some value → value.IsDefault) ↔
    ∀ tree, default = some tree → tree ≠ .null → tree.SpellsDefault

theorem eq_none_iff {α : Type} {read? : Tree → Option α} {written : Option Tree} {value : Option α}
    (h : Json.nullable? read? written = some value) : value = none ↔ IsNull written := by
  rcases Json.nullable?_eq_some_iff.mp h with ⟨null, rfl⟩ | ⟨tree, a, rfl, full, -, rfl⟩
  · exact iff_of_true rfl null
  · exact iff_of_false nofun fun null => by simp [IsNull, full] at null

theorem tells {depth : Nat} {tree : Tree} {f : FieldOutline} (h : ofTree? depth tree = some f) :
    ∃ name typeName domain default, tree.record? keys = some [name, typeName, domain, default] ∧
      f.Tells typeName domain default := by
  unfold ofTree? at h
  obtain ⟨values, found, h⟩ := Option.bind_eq_some_iff.mp h
  split at h
  · next name typeName domain default =>
    simp only [bind, Option.bind_eq_some_iff] at h
    obtain ⟨name', -, type', typed, domain', named, default', read, same⟩ := h
    cases same
    refine ⟨name, typeName, domain, default, found, eq_none_iff typed, eq_none_iff named,
      eq_none_iff read, ?_⟩
    rcases Json.nullable?_eq_some_iff.mp read with ⟨null, rfl⟩ | ⟨tree, value, rfl, full, made, rfl⟩
    · refine iff_of_true nofun fun tree written full => ?_
      rcases null with none | null
      · cases none.symm.trans written
      · cases null.symm.trans written
        exact (full rfl).elim
    · simp [full, Json.Value.isDefault_iff made]
  · cases h

end FieldOutline

end WireProtocol
