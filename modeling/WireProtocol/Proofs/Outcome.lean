/-!
# Outcomes

Inversion of computations that end with a value or an error.

* `Except.bind_eq_ok`, `Except.bind_eq_error`: a sequence ends with a value exactly when both of its
  steps do, and otherwise with the error of the one that does not.
* `Except.map_eq_ok`, `Except.map_eq_error`, `Except.mapError_eq_ok`, `Except.toOption_eq_some`: how a
  computation ends whose value or error is changed, or whose error is dropped.
* `Except.ite_eq_ok`: a guarded value is there exactly when its guard holds.
* `Except.exists_mapM_eq_ok`, `Except.mapM_of_error`: a step for each member of a list ends with values
  exactly when each does, and otherwise with the error of the first that does not.
* `Except.foldlM_induction`: what each of several steps keeps up holds at their end.
* `Except.Ends`, `Except.Ends.bind`, `Except.Ends.mapM`, `Except.Ends.foldlM`: the error that a
  computation ends with is that of the first of its steps that has one.
* `ExceptT.run_bind_state`, `ExceptT.run_bind_eq_ok`: the same for steps that also change a state.
* `ExceptT.bind_of_some_ok`, `ExceptT.bind_of_some_error`: the same for steps that may have no outcome.
-/

theorem List.findSome?_cons_eq_or {α β : Type} (f : α → Option β) (x : α) (xs : List α) :
    (x :: xs).findSome? f = (f x).or (xs.findSome? f) := by
  rw [List.findSome?_cons]
  cases f x <;> rfl

theorem List.findSome?_flatMap {α β γ : Type} (f : α → List β) (g : β → Option γ) (xs : List α) :
    (xs.flatMap f).findSome? g = xs.findSome? fun x => (f x).findSome? g := by
  induction xs with
  | nil => rfl
  | cons x xs ih =>
    rw [List.flatMap_cons, List.findSome?_append, ih, List.findSome?_cons_eq_or]

namespace Except

variable {ε α β : Type}

theorem bind_eq_ok {x : Except ε α} {f : α → Except ε β} {b : β} :
    x >>= f = .ok b ↔ ∃ a, x = .ok a ∧ f a = .ok b := by
  cases x with
  | error e =>
    constructor
    · intro h
      cases h
    · rintro ⟨a, h, -⟩
      cases h
  | ok a =>
    constructor
    · intro h
      exact ⟨a, rfl, h⟩
    · rintro ⟨a', h, h'⟩
      cases h
      exact h'

theorem bind_eq_error {x : Except ε α} {f : α → Except ε β} {e : ε} :
    x >>= f = .error e ↔ x = .error e ∨ ∃ a, x = .ok a ∧ f a = .error e := by
  cases x with
  | error e' =>
    constructor
    · intro h
      cases h
      exact .inl rfl
    · rintro (h | ⟨a, h, -⟩)
      · cases h
        rfl
      · cases h
  | ok a =>
    constructor
    · intro h
      exact .inr ⟨a, rfl, h⟩
    · rintro (h | ⟨a', h, h'⟩)
      · cases h
      · cases h
        exact h'

theorem toOption_eq_some {x : Except ε α} {a : α} : x.toOption = some a ↔ x = .ok a := by
  cases x <;> simp [Except.toOption]

/-- A value that a computation is known to have is the one that it ends with. -/
theorem eq_of_toOption {x : Except ε α} (expected : α) (known : x.toOption = some expected) {a : α}
    (ended : x = .ok a) : a = expected :=
  Except.ok.inj (ended.symm.trans (toOption_eq_some.mp known))

theorem map_eq_ok {x : Except ε α} {f : α → β} {b : β} :
    x.map f = .ok b ↔ ∃ a, x = .ok a ∧ f a = b := by
  cases x <;> simp [Except.map]

theorem map_eq_error {x : Except ε α} {f : α → β} {e : ε} : x.map f = .error e ↔ x = .error e := by
  cases x <;> simp [Except.map]

theorem mapError_eq_ok {ε' : Type} {x : Except ε α} {f : ε → ε'} {a : α} :
    x.mapError f = .ok a ↔ x = .ok a := by
  cases x with
  | ok a' =>
    constructor <;> intro h <;> cases h <;> rfl
  | error e => exact iff_of_false nofun nofun

theorem exists_eq_ok_of_isOk {x : Except ε α} (h : x.isOk = true) : ∃ a, x = .ok a := by
  cases x with
  | ok a => exact ⟨a, rfl⟩
  | error e => cases h

theorem ite_eq_ok {p : Prop} [Decidable p] {a b : α} {e : ε} :
    (if p then .ok a else .error e : Except ε α) = .ok b ↔ p ∧ b = a := by
  by_cases h : p
  · rw [if_pos h, Except.ok.injEq, and_iff_right h, eq_comm]
  · rw [if_neg h]
    exact ⟨nofun, fun both => absurd both.1 h⟩

theorem exists_mapM_eq_ok {f : α → Except ε β} {xs : List α} :
    (∃ ys, xs.mapM f = .ok ys) ↔ ∀ x ∈ xs, ∃ y, f x = .ok y := by
  induction xs with
  | nil =>
    rw [List.mapM_nil]
    exact ⟨fun _ => nofun, fun _ => ⟨[], rfl⟩⟩
  | cons x xs ih =>
    rw [List.mapM_cons, List.forall_mem_cons, ← ih]
    constructor
    · rintro ⟨ys, h⟩
      obtain ⟨y, first, h⟩ := bind_eq_ok.mp h
      obtain ⟨ys', rest, -⟩ := bind_eq_ok.mp h
      exact ⟨⟨y, first⟩, ys', rest⟩
    · rintro ⟨⟨y, first⟩, ys, rest⟩
      exact ⟨y :: ys, bind_eq_ok.mpr ⟨y, first, bind_eq_ok.mpr ⟨ys, rest, rfl⟩⟩⟩

/-- The first member that fails decides the error. -/
theorem mapM_of_error {f : α → Except ε β} {before after : List α} {x : α} {e : ε}
    (passed : ∀ x ∈ before, ∃ y, f x = .ok y) (failed : f x = .error e) :
    (before ++ x :: after).mapM f = .error e := by
  induction before with
  | nil =>
    rw [List.nil_append, List.mapM_cons, failed]
    rfl
  | cons first before ih =>
    rw [List.forall_mem_cons] at passed
    obtain ⟨⟨y, here⟩, rest⟩ := passed
    rw [List.cons_append, List.mapM_cons, here, ih rest]
    rfl

/-- A step for each member of a list says of its value what is known of the member. -/
theorem map_eq_of_mapM {γ : Type} {f : α → Except ε β} {g : β → γ} {k : α → γ} {xs : List α}
    {ys : List β} (h : xs.mapM f = .ok ys) (each : ∀ x y, f x = .ok y → g y = k x) :
    ys.map g = xs.map k := by
  induction xs generalizing ys with
  | nil =>
    cases h
    rfl
  | cons x xs ih =>
    rw [List.mapM_cons] at h
    obtain ⟨y, first, h⟩ := bind_eq_ok.mp h
    obtain ⟨ys', others, h⟩ := bind_eq_ok.mp h
    cases h
    rw [List.map_cons, List.map_cons, each x y first, ih others]

/-- What holds at the start and after each step, of the members that it has been taken for, holds at
the end, of all of them. -/
theorem foldlM_induction {γ : Type} {f : γ → α → Except ε γ} {P : List α → γ → Prop} {xs : List α}
    {c c' : γ} (h : xs.foldlM f c = .ok c') (start : P [] c)
    (step : ∀ before x c c', P before c → f c x = .ok c' → P (before ++ [x]) c') : P xs c' := by
  suffices run : ∀ before c, P before c → xs.foldlM f c = .ok c' → P (before ++ xs) c' from
    run [] c start h
  clear h start
  induction xs with
  | nil =>
    intro before c here h
    cases h
    rwa [List.append_nil]
  | cons x xs ih =>
    intro before c here h
    rw [List.foldlM_cons] at h
    obtain ⟨next, stepped, h⟩ := bind_eq_ok.mp h
    rw [List.append_cons]
    exact ih (before ++ [x]) next (step before x c next here stepped) h

/-! ## The first error -/

/-- The computation ends with the error, or with a value where there is none. -/
inductive Ends (x : Except ε α) : Option ε → Prop
  | value {a : α} (h : x = .ok a) : x.Ends none
  | error {e : ε} (h : x = .error e) : x.Ends (some e)

namespace Ends

variable {x : Except ε α} {first second : Option ε}

theorem exists_ok (h : x.Ends none) : ∃ a, x = .ok a := by
  cases h with
  | value h => exact ⟨_, h⟩

theorem eq_error {e : ε} (h : x.Ends (some e)) : x = .error e := by
  cases h with
  | error h => exact h

theorem exists_ok_iff (h : x.Ends first) : (∃ a, x = .ok a) ↔ first = none := by
  cases h with
  | value h => exact iff_of_true ⟨_, h⟩ rfl
  | error h => simp [h]

/-- There is a value when no check of a list fails. -/
theorem exists_ok_iff_forall {γ : Type} {failure : γ → Option ε} {checks : List γ}
    (h : x.Ends (checks.findSome? failure)) :
    (∃ a, x = .ok a) ↔ ∀ check ∈ checks, failure check = none := by
  rw [h.exists_ok_iff, List.findSome?_eq_none_iff]

/-- The first check of a list that fails decides the error. -/
theorem error_of_first {γ : Type} {failure : γ → Option ε} {before after : List γ} {check : γ}
    {e : ε} (h : x.Ends ((before ++ check :: after).findSome? failure))
    (passed : ∀ earlier ∈ before, failure earlier = none) (failed : failure check = some e) :
    x = .error e := by
  rw [List.findSome?_append, List.findSome?_eq_none_iff.mpr passed, Option.none_or,
    List.findSome?_cons_eq_or, failed] at h
  exact h.eq_error

/-- The second of two steps decides where the first has no error. -/
theorem bind {f : α → Except ε β} (h : x.Ends first) (next : ∀ a, x = .ok a → (f a).Ends second) :
    (x >>= f).Ends (first.or second) := by
  cases h with
  | value h =>
    subst h
    exact next _ rfl
  | error h =>
    subst h
    exact .error rfl

/-- A step without an error leaves the decision to the one behind it. -/
theorem next {f : α → Except ε β} (h : x.Ends none) (next : ∀ a, x = .ok a → (f a).Ends second) :
    (x >>= f).Ends second :=
  h.bind next

/-- A step decides where the one behind it has no error. -/
theorem last {f : α → Except ε β} (h : x.Ends first) (next : ∀ a, x = .ok a → (f a).Ends none) :
    (x >>= f).Ends first := by
  have ends := h.bind next
  rwa [Option.or_none] at ends

theorem mapError {ε' : Type} (h : x.Ends first) (f : ε → ε') : (x.mapError f).Ends (first.map f) := by
  cases h with
  | value h =>
    subst h
    exact .value rfl
  | error h =>
    subst h
    exact .error rfl

/-- A change of the value changes no error. -/
theorem map (h : x.Ends first) (f : α → β) : (f <$> x).Ends first :=
  h.last fun _ _ => .value rfl

/-- Of steps for each member of a list, the first that has an error decides. -/
theorem mapM {f : α → Except ε β} {failure : α → Option ε} {xs : List α}
    (h : ∀ x ∈ xs, (f x).Ends (failure x)) : (xs.mapM f).Ends (xs.findSome? failure) := by
  induction xs with
  | nil => exact .value rfl
  | cons x xs ih =>
    rw [List.forall_mem_cons] at h
    rw [List.mapM_cons, List.findSome?_cons_eq_or]
    exact h.1.bind fun y _ => (ih h.2).map fun ys => y :: ys

/-- Of steps that each add a member of a list to a value, the first that has an error decides. -/
theorem foldlM {γ : Type} {f : γ → α → Except ε γ} {failure : α → Option ε} {xs : List α}
    (h : ∀ x ∈ xs, ∀ c, (f c x).Ends (failure x)) (c : γ) :
    (xs.foldlM f c).Ends (xs.findSome? failure) := by
  induction xs generalizing c with
  | nil => exact .value rfl
  | cons x xs ih =>
    rw [List.forall_mem_cons] at h
    rw [List.foldlM_cons, List.findSome?_cons_eq_or]
    exact (h.1 c).bind fun c' _ => ih h.2 c'

/-- Steps without errors for each member of a list have none. -/
theorem mapM_none {f : α → Except ε β} {xs : List α} (h : ∀ x ∈ xs, (f x).Ends none) :
    (xs.mapM f).Ends none := by
  have ends := mapM h
  rwa [List.findSome?_eq_none_iff.mpr fun _ _ => rfl] at ends

end Ends

end Except

namespace ExceptT

variable {ε σ α β : Type}

theorem run_bind_state (step : ExceptT ε (StateM σ) α) (next : α → ExceptT ε (StateM σ) β) (s : σ) :
    (step >>= next).run s =
      match step.run s with
      | (.ok first, s₁) => (next first).run s₁
      | (.error e, s₁) => (.error e, s₁) := by
  change (match step s with | (outcome, s₁) => ExceptT.bindCont next outcome s₁) =
    match step s with
    | (.ok first, s₁) => (next first).run s₁
    | (.error e, s₁) => (.error e, s₁)
  rcases step s with ⟨_ | _, _⟩ <;> rfl

theorem run_bind_of_ok {step : ExceptT ε (StateM σ) α} (next : α → ExceptT ε (StateM σ) β) {s s₁ : σ}
    {first : α} (h : step.run s = (.ok first, s₁)) : (step >>= next).run s = (next first).run s₁ := by
  rw [run_bind_state, h]

theorem run_bind_of_error {step : ExceptT ε (StateM σ) α} (next : α → ExceptT ε (StateM σ) β)
    {s s₁ : σ} {e : ε} (h : step.run s = (.error e, s₁)) :
    (step >>= next).run s = (.error e, s₁) := by
  rw [run_bind_state, h]

theorem run_bind_eq_ok {step : ExceptT ε (StateM σ) α} {next : α → ExceptT ε (StateM σ) β} {s s' : σ}
    {value : β} :
    (step >>= next).run s = (.ok value, s') ↔
      ∃ first s₁, step.run s = (.ok first, s₁) ∧ (next first).run s₁ = (.ok value, s') := by
  rw [run_bind_state]
  split
  · rename_i first s₁ ran
    constructor
    · intro h
      exact ⟨first, s₁, ran, h⟩
    · rintro ⟨first', s₁', ran', h⟩
      cases ran.symm.trans ran'
      exact h
  · rename_i e s₁ ran
    constructor
    · intro h
      cases h
    · rintro ⟨first', s₁', ran', -⟩
      cases ran.symm.trans ran'

/-! ## Steps that may have no outcome -/

theorem bind_of_some_ok {step : ExceptT ε (StateT σ Option) α} {s s₁ : σ} {first : α}
    (h : step s = some (.ok first, s₁)) (next : α → ExceptT ε (StateT σ Option) β) :
    (step >>= next) s = next first s₁ := by
  change (step s).bind _ = _
  rw [h]
  rfl

theorem bind_of_some_error {step : ExceptT ε (StateT σ Option) α} {s s₁ : σ} {e : ε}
    (h : step s = some (.error e, s₁)) (next : α → ExceptT ε (StateT σ Option) β) :
    (step >>= next) s = some (.error e, s₁) := by
  change (step s).bind _ = _
  rw [h]
  rfl

end ExceptT
