import WireProtocol.Emit.Ident
import WireProtocol.Emit.Trace
import WireProtocol.Proofs.Outcome

/-!
# Operations that have a domain

Not every operation of a generation has a result for every input: an identifier is made of a name only,
and a shift goes by less than the width of what is shifted. Elsewhere it panics, and the generation ends
with neither a value nor an error.

* `PartialOperation`, `PartialOperation.Allowed`: such an operation, and its domain.
* `Guarded`: a generation that may panic. `Guarded.perform` does so outside the domain of an operation.
* `Guarded.lift`: a generation that does not. `Guarded.lift_bind` and `Guarded.lift_mapM` lead through
  its steps one by one.
* `Ident.guardedOfSpelling_eq`, `Ident.accepted_numbered`: identifiers are made of names only.
-/

namespace WireProtocol

/-- A text is an identifier in ASCII: a letter or an underscore, with letters, digits and underscores
behind it. A lone underscore is none. -/
def Ident.Accepted (text : String) : Prop :=
  text ≠ "_" ∧ (text.toList.head?.any fun first => first.isAlpha || first == '_') = true ∧
    (text.toList.all fun c => c.isAlphanum || c == '_') = true

instance (text : String) : Decidable (Ident.Accepted text) :=
  inferInstanceAs (Decidable (_ ∧ _))

/-- An operation that has a result for some inputs only. -/
inductive PartialOperation where
  /-- A plain identifier. -/
  | plain (text : String)
  /-- An identifier in the raw form. -/
  | raw (text : String)
  /-- The octet `1 << offset`. -/
  | groupMask (offset : Nat)
  /-- The flags `0x8000 >> index`. -/
  | presenceBit (index : Nat)
  /-- The flags `(1 << (16 - count)) - 1`. -/
  | reservedMask (count : Nat)
deriving DecidableEq, Repr

namespace PartialOperation

/-- The inputs that an operation has a result for. It has none for a shift by the whole width, nor for a
difference below zero. -/
def Allowed : PartialOperation → Prop
  | plain text => Ident.Accepted text
  | raw text => Ident.Accepted text ∧ text ∉ ["self", "Self", "super", "crate"]
  | groupMask offset => offset ≤ 7
  | presenceBit index => index ≤ 14
  | reservedMask count => 1 ≤ count ∧ count ≤ 15

instance : (operation : PartialOperation) → Decidable operation.Allowed
  | plain text => inferInstanceAs (Decidable (Ident.Accepted text))
  | raw text => inferInstanceAs (Decidable (Ident.Accepted text ∧ _))
  | groupMask offset => inferInstanceAs (Decidable (offset ≤ 7))
  | presenceBit index => inferInstanceAs (Decidable (index ≤ 14))
  | reservedMask count => inferInstanceAs (Decidable (1 ≤ count ∧ count ≤ 15))

end PartialOperation

/-- A generation that may panic. It then has no outcome, and what it has reported is lost. -/
abbrev Guarded (α : Type) := ExceptT GenerateError (StateT (List Event) Option) α

namespace Guarded

variable {α β γ : Type}

/-- An operation with its result. It panics outside of its domain. -/
def perform (operation : PartialOperation) (result : α) : Guarded α :=
  if operation.Allowed then pure result else fun _ => none

/-- A generation that does not panic. -/
def lift (gen : Gen α) : Guarded α :=
  fun events => some (ExceptT.run gen events)

/-- A step that reports nothing and does not panic. -/
def quiet (result : Except GenerateError α) : Guarded α :=
  lift (Gen.ofExcept result)

theorem perform_of_allowed (operation : PartialOperation) (h : operation.Allowed) (result : α) :
    perform operation result = pure result :=
  if_pos h

/-- A shift of flags by the whole width panics. -/
example : perform (.presenceBit 16) (0 : UInt16) [] = none := rfl

/-! ## Generations that do not panic -/

section

variable {m : Type → Type} [Monad m] [LawfulMonad m] (guard : {α : Type} → m α → Guarded α)
  (guard_pure : ∀ {α : Type} (value : α), guard (pure value) = pure value)
  (guard_bind : ∀ {α β : Type} (step : m α) (next : α → m β),
    guard (step >>= next) = guard step >>= fun value => guard (next value))

include guard_pure guard_bind

/-- A change of generations that keeps values and sequences keeps what is done with a value. -/
theorem map_of_bind (f : α → β) (step : m α) : guard (f <$> step) = f <$> guard step := by
  rw [map_eq_pure_bind, map_eq_pure_bind, guard_bind]
  exact bind_congr fun value => guard_pure (f value)

/-- Such a change goes through the steps for the members of a list one by one. -/
theorem mapM_of_bind (step : α → m β) (xs : List α) :
    guard (xs.mapM step) = xs.mapM fun x => guard (step x) := by
  induction xs with
  | nil => exact guard_pure []
  | cons x xs ih => simp only [List.mapM_cons, guard_bind, guard_pure, ih]

end

@[simp] theorem lift_pure (value : α) : lift (pure value) = pure value :=
  rfl

@[simp] theorem lift_bind (step : Gen α) (next : α → Gen β) :
    lift (step >>= next) = lift step >>= fun value => lift (next value) := by
  funext events
  cases ran : ExceptT.run step events with
  | mk result events' =>
    cases result with
    | ok value =>
      rw [ExceptT.bind_of_some_ok (congrArg some ran)]
      exact congrArg some (ExceptT.run_bind_of_ok next ran)
    | error e =>
      rw [ExceptT.bind_of_some_error (congrArg some ran)]
      exact congrArg some (ExceptT.run_bind_of_error next ran)

@[simp] theorem lift_map (f : α → β) (step : Gen α) : lift (f <$> step) = f <$> lift step :=
  map_of_bind lift lift_pure lift_bind f step

@[simp] theorem lift_mapM (step : α → Gen β) (xs : List α) :
    lift (xs.mapM step) = xs.mapM fun x => lift (step x) :=
  mapM_of_bind lift lift_pure lift_bind step xs

@[simp] theorem lift_ofExcept (result : Except GenerateError α) :
    lift (Gen.ofExcept result) = quiet result :=
  rfl

@[simp] theorem lift_ask (result : Except DescriptionError α) :
    lift (Gen.ask result) = quiet (result.mapError .description) :=
  rfl

@[simp] theorem quiet_pure (value : α) : quiet (pure value) = pure value :=
  rfl

@[simp] theorem quiet_bind (step : Except GenerateError α) (next : α → Except GenerateError β) :
    quiet (step >>= next) = quiet step >>= fun value => quiet (next value) := by
  cases step <;> rfl

@[simp] theorem quiet_map (f : α → β) (step : Except GenerateError α) :
    quiet (f <$> step) = f <$> quiet step :=
  map_of_bind quiet quiet_pure quiet_bind f step

@[simp] theorem quiet_mapM (step : α → Except GenerateError β) (xs : List α) :
    quiet (xs.mapM step) = xs.mapM fun x => quiet (step x) :=
  mapM_of_bind quiet quiet_pure quiet_bind step xs

/-- What follows a step matters for the values only that the step can end with. -/
theorem quiet_bind_congr {step : Except GenerateError α} {next next' : α → Guarded β}
    (h : ∀ value, step = .ok value → next value = next' value) :
    quiet step >>= next = quiet step >>= next' := by
  cases step with
  | ok value => exact h value rfl
  | error e => rfl

/-- Steps for the members of a list are the same if each of them is. -/
theorem mapM_congr {step step' : α → Guarded β} {xs : List α} (h : ∀ x ∈ xs, step x = step' x) :
    xs.mapM step = xs.mapM step' := by
  induction xs with
  | nil => rfl
  | cons x xs ih =>
    rw [List.forall_mem_cons] at h
    rw [List.mapM_cons, List.mapM_cons, h.1, ih h.2]

/-- Steps for the members of a list that do nothing but end with a value. -/
theorem mapM_eq_pure {step : α → Guarded β} {value : α → β} {xs : List α}
    (h : ∀ x ∈ xs, step x = pure (value x)) : xs.mapM step = pure (xs.map value) :=
  (mapM_congr h).trans List.mapM_pure

/-- Steps that are taken for a list, and then once more at the start of others. -/
theorem mapM_again {step : α → Except GenerateError β} {step' : α → Guarded β}
    (h : ∀ x, step' x = quiet (step x)) (xs : List α) (next : List β → Except GenerateError γ) :
    (xs.mapM step' >>= fun _ => quiet (xs.mapM step >>= next)) = quiet (xs.mapM step >>= next) := by
  have first : xs.mapM step' = quiet (xs.mapM step) :=
    (mapM_congr fun x _ => h x).trans (quiet_mapM step xs).symm
  rw [first]
  cases xs.mapM step <;> rfl

end Guarded

/-! ## Identifiers -/

namespace Ident

open Guarded

/-- A plain identifier, made of a name only. -/
def guardedPlain (text : String) : Guarded Ident :=
  perform (.plain text) (plain text)

/-- A raw identifier, made of a name only. -/
def guardedRaw (text : String) : Guarded Ident :=
  perform (.raw text) (raw text)

/-- The identifier of a spelling. -/
def guardedOfSpelling (spelling source : String) : Guarded Ident :=
  if !isName spelling then quiet (.error (.invalidName source))
  else if fixedKeywords.contains spelling then guardedPlain (spelling ++ "_")
  else if keywords.contains spelling then guardedRaw spelling
  else guardedPlain spelling

/-- The identifier of a field. -/
def guardedOfField (name : String) : Guarded Ident :=
  guardedOfSpelling (Naming.fieldName name) name

/-- The identifier of a type. -/
def guardedOfType (parts : List String) : Guarded Ident :=
  guardedOfSpelling (Words.pascal (joinParts parts)) (joinParts parts)

/-- The identifier of a function. -/
def guardedOfFunction (parts : List String) : Guarded Ident :=
  guardedOfSpelling (Naming.fieldName (joinParts parts)) (joinParts parts)

/-- The identifier of a constant. -/
def guardedOfConstant (name : String) : Guarded Ident :=
  guardedOfSpelling (Naming.constantName name) name

theorem guardedPlain_eq {text : String} (h : Accepted text) : guardedPlain text = pure (plain text) :=
  perform_of_allowed (.plain text) h _

theorem guardedRaw_eq {text : String} (h : Accepted text)
    (free : text ∉ ["self", "Self", "super", "crate"]) : guardedRaw text = pure (raw text) :=
  perform_of_allowed (.raw text) ⟨h, free⟩ _

theorem accepted_of_isName {spelling : String} (h : isName spelling = true) : Accepted spelling := by
  unfold isName at h
  split at h
  · cases h
  · next first rest letters =>
    rw [Bool.and_eq_true, Bool.or_eq_true, Bool.and_eq_true] at h
    obtain ⟨front, others⟩ := h
    have begins : (first.isAlpha || first == '_') = true := by
      rw [Bool.or_eq_true]
      exact front.imp_right And.left
    refine ⟨?_, ?_, ?_⟩
    · rintro rfl
      cases letters
      rcases front with letter | ⟨-, more⟩
      · exact absurd letter (by decide)
      · exact absurd more (by decide)
    · rw [letters]
      exact begins
    · rw [letters, List.all_cons, Bool.and_eq_true]
      refine ⟨?_, others⟩
      rw [Char.isAlphanum, Bool.or_right_comm, begins, Bool.true_or]

@[simp] theorem guardedOfSpelling_eq (spelling source : String) :
    guardedOfSpelling spelling source = quiet (ofSpelling spelling source) := by
  -- The keywords that are never raw are names with an underscore.
  have fixed : ∀ word ∈ fixedKeywords, Accepted (word ++ "_") := by decide
  have reserved : ∀ word ∈ ["self", "Self", "super", "crate"], word ∈ fixedKeywords := by decide
  rw [guardedOfSpelling, ofSpelling]
  by_cases letters : isName spelling = true
  · have accepted := accepted_of_isName letters
    simp only [letters, Bool.not_true, Bool.false_eq_true, if_false, List.contains_iff_mem]
    by_cases keyword : spelling ∈ fixedKeywords
    · rw [if_pos keyword, if_pos keyword]
      exact guardedPlain_eq (fixed spelling keyword)
    · rw [if_neg keyword, if_neg keyword]
      by_cases raw : spelling ∈ keywords
      · rw [if_pos raw, if_pos raw]
        exact guardedRaw_eq accepted fun member => keyword (reserved spelling member)
      · rw [if_neg raw, if_neg raw]
        exact guardedPlain_eq accepted
  · simp [letters]

@[simp] theorem guardedOfField_eq (name : String) : guardedOfField name = quiet (ofField name) :=
  guardedOfSpelling_eq _ _

@[simp] theorem guardedOfType_eq (parts : List String) : guardedOfType parts = quiet (ofType parts) :=
  guardedOfSpelling_eq _ _

@[simp] theorem guardedOfFunction_eq (parts : List String) :
    guardedOfFunction parts = quiet (ofFunction parts) :=
  guardedOfSpelling_eq _ _

@[simp] theorem guardedOfConstant_eq (name : String) :
    guardedOfConstant name = quiet (ofConstant name) :=
  guardedOfSpelling_eq _ _

/-- A name with a number behind it is a name. -/
theorem accepted_numbered {kind : String} (h : Accepted kind) (n : Nat) :
    Accepted (kind ++ toString n) := by
  obtain ⟨-, front, letters⟩ := h
  have digits : (toString n).toList = Nat.toDigits 10 n := by
    rw [Nat.toString_eq_ofList_toDigits, String.toList_ofList]
  obtain ⟨first, others, kind_eq⟩ : ∃ first others, kind.toList = first :: others := by
    cases characters : kind.toList with
    | nil => simp [characters] at front
    | cons first others => exact ⟨first, others, rfl⟩
  refine ⟨?_, ?_, ?_⟩
  · intro same
    have lengths := congrArg (List.length ∘ String.toList) same
    have one : "_".toList.length = 1 := rfl
    have some : 0 < (Nat.toDigits 10 n).length := Nat.length_toDigits_pos
    simp only [Function.comp_apply, String.toList_append, kind_eq, digits, List.length_append,
      List.length_cons, one] at lengths
    omega
  · rw [kind_eq] at front
    rwa [String.toList_append, kind_eq]
  · rw [String.toList_append, digits, List.all_append, letters, Bool.true_and, List.all_eq_true]
    intro c member
    have digit := Nat.isDigit_of_mem_toDigits (by decide) (by decide) member
    rw [Char.isAlphanum, digit, Bool.or_true, Bool.true_or]

end Ident

end WireProtocol
