import Mathlib.Data.List.Nodup
import WireProtocol.Codec.Exception

/-!
# First matches

A table answers with the first entry that matches what is asked for.

* `FirstWith`: a member of a list is the first one with a property.
* `find?_eq_some_iff_firstWith`: a search finds the first member that it looks for.
* `FirstOr`: an answer is the first member with a property, or an error where there is none.
* `lookup_eq_map_find?`: what is looked up by a key is what the first entry with the key has.
* `find?_firstByKey`: entries that repeat the key of an earlier one answer nothing.
* `FirstWith.of_nodup`, `nodup_of_first`: members that share no keys are the first ones with their own,
  and the other way round.
-/

namespace WireProtocol

variable {α β : Type}

/-- The member of a list is the first one with the property. -/
def FirstWith (p : α → Prop) (xs : List α) (x : α) : Prop :=
  ∃ before after, xs = before ++ x :: after ∧ p x ∧ ∀ earlier ∈ before, ¬ p earlier

theorem find?_eq_some_iff_firstWith {p : α → Bool} {xs : List α} {x : α} :
    xs.find? p = some x ↔ FirstWith (fun x => p x = true) xs x := by
  rw [List.find?_eq_some_iff_append]
  constructor
  · rintro ⟨here, before, after, parts, others⟩
    exact ⟨before, after, parts, here, fun earlier inside => by simpa using others earlier inside⟩
  · rintro ⟨before, after, parts, here, others⟩
    exact ⟨here, before, after, parts, fun earlier inside => by simpa using others earlier inside⟩

namespace FirstWith

variable {p q : α → Prop} {xs : List α} {x : α}

theorem mem (h : FirstWith p xs x) : x ∈ xs := by
  obtain ⟨before, after, rfl, -, -⟩ := h
  exact List.mem_append_right before List.mem_cons_self

theorem holds (h : FirstWith p xs x) : p x := by
  obtain ⟨before, after, -, here, -⟩ := h
  exact here

/-- Properties that the members share have the same first member. -/
theorem congr (same : ∀ x ∈ xs, p x ↔ q x) : FirstWith p xs x ↔ FirstWith q xs x := by
  refine exists₂_congr fun before after => and_congr_right fun parts => ?_
  subst parts
  refine and_congr (same x (by simp)) (forall₂_congr fun earlier inside => ?_)
  rw [same earlier (by simp [inside])]

/-- A search for a property finds its first member. -/
theorem find?_eq (h : FirstWith p xs x) {test : α → Bool} (same : ∀ x ∈ xs, test x = true ↔ p x) :
    xs.find? test = some x :=
  find?_eq_some_iff_firstWith.mpr ((congr same).mpr h)

theorem iff_find? [DecidablePred p] : FirstWith p xs x ↔ xs.find? (fun x => decide (p x)) = some x := by
  rw [find?_eq_some_iff_firstWith]
  exact congr fun x _ => decide_eq_true_iff.symm

/-- No other member is the first one. -/
theorem unique {y : α} (h : FirstWith p xs x) (h' : FirstWith p xs y) : x = y := by
  classical
  rw [iff_find?] at h h'
  exact Option.some.inj (h.symm.trans h')

/-- There is a first member with a property as soon as there is one. -/
theorem exists_of_mem (member : x ∈ xs) (here : p x) : ∃ first, FirstWith p xs first := by
  classical
  simp only [iff_find?, ← Option.isSome_iff_exists, List.find?_isSome]
  exact ⟨x, member, decide_eq_true here⟩

end FirstWith

/-! ## Answers -/

/-- The answer is the first member with the property, or an error where there is none. -/
inductive FirstOr {ε : Type} (p : α → Prop) (xs : List α) (missing : ε) : Except ε α → Prop
  | found {x : α} (first : FirstWith p xs x) : FirstOr p xs missing (.ok x)
  | missing (none : ∀ x ∈ xs, ¬ p x) : FirstOr p xs missing (.error missing)

namespace FirstOr

variable {ε : Type} {p : α → Prop} {xs : List α} {e : ε} {answer : Except ε α}

/-- A search answers with the first member that it looks for. -/
theorem of_find? {test : α → Bool} (same : ∀ x ∈ xs, test x = true ↔ p x)
    (hit : ∀ x, xs.find? test = some x → answer = .ok x)
    (miss : xs.find? test = none → answer = .error e) : FirstOr p xs e answer := by
  cases searched : xs.find? test with
  | some x =>
    rw [hit x searched]
    exact .found ((FirstWith.congr same).mp (find?_eq_some_iff_firstWith.mp searched))
  | none =>
    rw [miss searched]
    exact .missing fun x member => (same x member).not.mp (List.find?_eq_none.mp searched x member)

theorem eq_ok_iff (h : FirstOr p xs e answer) {x : α} : answer = .ok x ↔ FirstWith p xs x := by
  cases h with
  | found first =>
    rw [Except.ok.injEq]
    exact ⟨fun same => same ▸ first, first.unique⟩
  | missing none => exact iff_of_false nofun fun first => none x first.mem first.holds

theorem eq_error (h : FirstOr p xs e answer) (none : ∀ x ∈ xs, ¬ p x) : answer = .error e := by
  cases h with
  | found first => exact (none _ first.mem first.holds).elim
  | missing _ => rfl

end FirstOr

/-! ## Keys -/

/-- What is looked up by a key is what the first entry with the key has. -/
theorem lookup_eq_map_find? [DecidableEq α] (k : α) (entries : List (α × β)) :
    entries.lookup k = (entries.find? fun e => e.1 == k).map (·.2) := by
  induction entries with
  | nil => rfl
  | cons e entries ih =>
    rw [List.lookup_cons, List.find?_cons, Bool.beq_comm]
    cases e.1 == k <;> simp [ih]

/-- Members that have the key of an earlier one are not found by it. -/
theorem find?_firstByKey [DecidableEq β] (key : α → β) (k : β) (xs : List α) :
    (firstByKey key xs).find? (fun x => key x == k) = xs.find? fun x => key x == k := by
  induction xs with
  | nil => rfl
  | cons x xs ih =>
    rw [firstByKey, List.find?_cons, List.find?_cons]
    by_cases here : key x = k
    · rw [beq_iff_eq.mpr here]
    · rw [beq_eq_false_iff_ne.mpr here, List.find?_filter, ← ih]
      -- What is looked for has another key than the member in front.
      refine congrArg (List.find? · _) (funext fun y => ?_)
      by_cases there : key y = k
      · simp [there, Ne.symm here]
      · simp [there]

/-- Where no two members share a key, each is the first one with its own. -/
theorem FirstWith.of_nodup {key : α → β} {xs : List α} (nodup : (xs.map key).Nodup) {x : α}
    (member : x ∈ xs) : FirstWith (fun y => key y = key x) xs x := by
  obtain ⟨first, found⟩ := FirstWith.exists_of_mem (p := fun y => key y = key x) member rfl
  have same : first = x := List.inj_on_of_nodup_map nodup found.mem member found.holds
  rwa [same] at found

/-- Members with names of their own share no keys, if for each of them the first one with its key goes
by its name. -/
theorem nodup_of_first {γ : Type} {key : α → β} {name : α → γ} {xs : List α}
    (apart : (xs.map name).Nodup)
    (found : ∀ x ∈ xs, ∃ first, FirstWith (fun y => key y = key x) xs first ∧ name first = name x) :
    (xs.map key).Nodup := by
  refine (List.Nodup.of_map name apart).map_on fun x member y member' same => ?_
  obtain ⟨first, is_first, named⟩ := found x member
  obtain ⟨first', is_first', named'⟩ := found y member'
  rw [← same] at is_first'
  have both : first = first' := is_first.unique is_first'
  exact List.inj_on_of_nodup_map apart member member' (named.symm.trans (both ▸ named'))

end WireProtocol
