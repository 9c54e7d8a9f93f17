import Mathlib.Data.List.Forall2
import WireProtocol.Proofs.Outcome

/-!
# Lists whose members correspond

* `List.forall₂_of_mapM`: the members of a list and the values of a step for each of them correspond, in
  any monad whose sequences can be taken apart.
* `Option.forall₂_of_mapM`, `Except.forall₂_of_mapM`: the same for what may be missing or fail.
* `List.Forall₂.comp`, `List.Forall₂.zip`: members that correspond to the same member correspond to each
  other; and what corresponds to two members corresponds to the pair of them.
* `List.Forall₂.zipIdx`, `List.Forall₂.of_getElem?`: members that correspond stand at the same places, and
  those at the same places correspond.
* `List.Forall₂.exists_of_mem`, `List.Forall₂.find?`: something corresponds to every member, and to the
  first one that is looked for.
* `List.Forall₂.map_eq`, `List.Forall₂.flatMap_eq`: members that correspond are replaced with the same.
* `List.mapM_map_of_map`, `List.mapM_map_of_eq`: steps for changed members have the changed values, or
  the same ones.
-/

/-- The members of a list and the values of a step for each of them correspond. -/
theorem List.forall₂_of_mapM {m : Type → Type} [Monad m] [LawfulMonad m]
    {P : ∀ {γ : Type}, m γ → γ → Prop}
    (pure : ∀ {γ : Type} {c c' : γ}, P (pure c : m γ) c' → c' = c)
    (bind : ∀ {γ δ : Type} {step : m γ} {next : γ → m δ} {value : δ}, P (step >>= next) value →
      ∃ first, P step first ∧ P (next first) value)
    {α β : Type} {f : α → m β} {xs : List α} {ys : List β} (h : P (xs.mapM f) ys) :
    List.Forall₂ (fun x y => P (f x) y) xs ys := by
  induction xs generalizing ys with
  | nil =>
    rw [List.mapM_nil] at h
    cases pure h
    exact .nil
  | cons x xs ih =>
    rw [List.mapM_cons] at h
    obtain ⟨y, first, h⟩ := bind h
    obtain ⟨others, rest, h⟩ := bind h
    cases pure h
    exact .cons first (ih rest)

theorem Option.forall₂_of_mapM {α β : Type} {f : α → Option β} {xs : List α} {ys : List β}
    (h : xs.mapM f = some ys) : List.Forall₂ (fun x y => f x = some y) xs ys :=
  List.forall₂_of_mapM (P := fun value result => value = some result)
    (fun same => (Option.some.inj same).symm) Option.bind_eq_some_iff.mp h

theorem Except.forall₂_of_mapM {ε α β : Type} {f : α → Except ε β} {xs : List α} {ys : List β}
    (h : xs.mapM f = .ok ys) : List.Forall₂ (fun x y => f x = .ok y) xs ys :=
  List.forall₂_of_mapM (m := Except ε) (P := fun value result => value = Except.ok result)
    (fun same => (Except.ok.inj same).symm) Except.bind_eq_ok.mp h

/-- Members that correspond to the same member correspond to each other. -/
theorem List.Forall₂.comp {α β γ : Type} {R : α → β → Prop} {S : β → γ → Prop} {T : α → γ → Prop}
    {xs : List α} {ys : List β} {zs : List γ} (h : List.Forall₂ R xs ys) (h' : List.Forall₂ S ys zs)
    (both : ∀ x y z, R x y → S y z → T x z) : List.Forall₂ T xs zs := by
  induction h generalizing zs with
  | nil =>
    cases h'
    exact .nil
  | cons here _ ih =>
    cases h' with
    | cons here' rest => exact .cons (both _ _ _ here here') (ih rest)

/-- Members that correspond stand at the same places. -/
theorem List.Forall₂.zipIdx {α β : Type} {R : α → β → Prop} {xs : List α} {ys : List β}
    (h : List.Forall₂ R xs ys) (start : Nat) :
    List.Forall₂ (fun x y => R x.1 y.1 ∧ x.2 = y.2) (xs.zipIdx start) (ys.zipIdx start) := by
  induction h generalizing start with
  | nil => exact .nil
  | cons here _ ih => exact .cons ⟨here, rfl⟩ (ih (start + 1))

/-- Members at the same place correspond. -/
theorem List.Forall₂.of_getElem? {α β : Type} {R : α → β → Prop} {xs : List α} {ys : List β}
    (h : List.Forall₂ R xs ys) {i : Nat} {x : α} {y : β} (there : xs[i]? = some x)
    (there' : ys[i]? = some y) : R x y := by
  obtain ⟨inside, rfl⟩ := List.getElem?_eq_some_iff.mp there
  obtain ⟨inside', rfl⟩ := List.getElem?_eq_some_iff.mp there'
  exact h.get inside inside'

theorem List.Forall₂.exists_of_mem {α β : Type} {R : α → β → Prop} {xs : List α} {ys : List β}
    (h : List.Forall₂ R xs ys) {x : α} (member : x ∈ xs) : ∃ y ∈ ys, R x y := by
  induction h with
  | nil => cases member
  | cons here _ ih =>
    rcases List.mem_cons.mp member with rfl | behind
    · exact ⟨_, List.mem_cons_self, here⟩
    · obtain ⟨y, member, there⟩ := ih behind
      exact ⟨y, List.mem_cons_of_mem _ member, there⟩

/-- Searches that do not tell members apart that correspond find such members, or nothing. -/
theorem List.Forall₂.find? {α β : Type} {R : α → β → Prop} {xs : List α} {ys : List β}
    (h : List.Forall₂ R xs ys) {p : α → Bool} {q : β → Bool} (same : ∀ x y, R x y → p x = q y) :
    (∃ x y, xs.find? p = some x ∧ ys.find? q = some y ∧ R x y) ∨ xs.find? p = none ∧ ys.find? q = none := by
  induction h with
  | nil => exact .inr ⟨rfl, rfl⟩
  | @cons x y xs ys here _ ih =>
    rw [List.find?_cons, List.find?_cons, same x y here]
    cases q y with
    | true => exact .inl ⟨x, y, rfl, rfl, here⟩
    | false => exact ih

/-- Members that correspond to those of two lists correspond to the pairs of them. -/
theorem List.Forall₂.zip {α β γ : Type} {R : α → β → Prop} {S : α → γ → Prop} {xs : List α} {ys : List β}
    {zs : List γ} (h : List.Forall₂ R xs ys) (h' : List.Forall₂ S xs zs) :
    List.Forall₂ (fun x pair => R x pair.1 ∧ S x pair.2) xs (ys.zip zs) := by
  induction h generalizing zs with
  | nil => exact .nil
  | cons here _ ih =>
    cases h' with
    | cons here' rest => exact .cons ⟨here, here'⟩ (ih rest)

theorem List.Forall₂.map_eq {α β γ : Type} {f : α → γ} {g : β → γ} {xs : List α} {ys : List β}
    (h : List.Forall₂ (fun x y => f x = g y) xs ys) : xs.map f = ys.map g := by
  induction h with
  | nil => rfl
  | cons here _ ih => rw [List.map_cons, List.map_cons, here, ih]

/-- If members that correspond are replaced with the same lists, the whole lists are the same. -/
theorem List.Forall₂.flatMap_eq {α β γ : Type} {f : α → List γ} {g : β → List γ} {xs : List α} {ys : List β}
    (h : List.Forall₂ (fun x y => f x = g y) xs ys) : xs.flatMap f = ys.flatMap g := by
  rw [List.flatMap_def, List.flatMap_def, h.map_eq]

section Changed

variable {m : Type → Type} [Monad m] [LawfulMonad m] {α β γ δ : Type}

/-- If the step for a changed member has the changed value, so have all steps. -/
theorem List.mapM_map_of_map {f : α → m γ} {f' : β → m δ} {change : α → β} {change' : γ → δ}
    {xs : List α} (each : ∀ x ∈ xs, f' (change x) = change' <$> f x) :
    (xs.map change).mapM f' = List.map change' <$> xs.mapM f := by
  induction xs with
  | nil => simp
  | cons x xs ih =>
    rw [List.forall_mem_cons] at each
    simp [each.1, ih each.2]

/-- If the step for a changed member has the same value, so have all steps. -/
theorem List.mapM_map_of_eq {f : α → m γ} {f' : β → m γ} {change : α → β} {xs : List α}
    (each : ∀ x ∈ xs, f' (change x) = f x) : (xs.map change).mapM f' = xs.mapM f := by
  have changed : (xs.map change).mapM f' = List.map id <$> xs.mapM f :=
    List.mapM_map_of_map fun x inside => (each x inside).trans (id_map (f x)).symm
  rwa [List.map_id_fun, id_map] at changed

end Changed
