import Mathlib.Data.List.Forall2
import WireProtocol.Json.Record

/-!
# Records that are written in two ways

* `Json.Tree.ofMembers`: an object whose members are named by texts.
* `Json.Key.values`: all that an object has under a key.
* `Json.Key.inObject?_perm`, `Json.Key.inObject?_cons`, `Json.Key.inObject?_replace`: what becomes of the
  value under a key when an object changes.
* `Json.Alike`: two lists of values for the same keys, each of which may stand for the other.
* `Json.Alike.of_objects`, `Json.Alike.of_array`, `Json.Alike.of_arrays`: the values that two documents give
  to keys may stand for each other if those under each key may.
-/

namespace WireProtocol

namespace Json

/-! ## Objects -/

/-- An object whose members are named by texts. -/
def Tree.ofMembers (members : List (String × Tree)) : Tree :=
  .object (members.map fun member => (some member.1, member.2))

theorem named?_ofMembers (members : List (String × Tree)) :
    named? (members.map fun member => (some member.1, member.2)) = some members := by
  induction members with
  | nil => rfl
  | cons member members ih =>
    rw [List.map_cons, named?, ih]
    rfl

theorem Tree.record?_ofMembers (keys : List Key) (members : List (String × Tree)) :
    (Tree.ofMembers members).record? keys = keys.mapM (·.inObject? members) := by
  rw [Tree.ofMembers, Tree.record?, named?_ofMembers]
  rfl

namespace Key

variable {key : Key} {members members' front behind : List (String × Tree)} {name : String} {tree : Tree}

/-- All that an object has under the key. -/
def values (key : Key) (members : List (String × Tree)) : List Tree :=
  (members.filter (·.1 == key.name)).map (·.2)

theorem values_append : key.values (front ++ behind) = key.values front ++ key.values behind := by
  simp [values]

theorem values_cons_self (same : key.name = name) :
    key.values ((name, tree) :: members) = tree :: key.values members := by
  simp [values, same]

theorem values_cons_of_ne (other : key.name ≠ name) :
    key.values ((name, tree) :: members) = key.values members := by
  simp [values, Ne.symm other]

theorem inObject?_of_nil (missing : key.values members = []) :
    key.inObject? members = if key.presence = .required then none else some none := by
  rw [inObject?, List.map_eq_nil_iff.mp missing]

theorem inObject?_of_singleton (single : key.values members = [tree]) :
    key.inObject? members = some (some tree) := by
  obtain ⟨member, found, rfl⟩ := List.map_eq_singleton_iff.mp single
  rw [inObject?, found]

theorem inObject?_of_many (many : 2 ≤ (key.values members).length) : key.inObject? members = none := by
  rw [values, List.length_map] at many
  rw [inObject?]
  split
  · next found => simp [found] at many
  · next found => simp [found] at many
  · rfl

/-- What an object has under a key depends on all that it has there. -/
theorem inObject?_congr (same : (key.values members).Perm (key.values members')) :
    key.inObject? members = key.inObject? members' := by
  generalize found : key.values members = values at same
  obtain - | ⟨tree, - | ⟨other, rest⟩⟩ := values
  · rw [inObject?_of_nil found, inObject?_of_nil (List.nil_perm.mp same)]
  · rw [inObject?_of_singleton found, inObject?_of_singleton (List.singleton_perm.mp same).symm]
  · have many : 2 ≤ (tree :: other :: rest).length := Nat.le_add_left 2 rest.length
    rw [inObject?_of_many (found ▸ many), inObject?_of_many (same.length_eq ▸ many)]

theorem inObject?_perm (same : members.Perm members') : key.inObject? members = key.inObject? members' :=
  inObject?_congr ((same.filter _).map _)

end Key

/-! ## Values that may stand for each other -/

variable {α : Type} {key : α → Key} {same : α → Option Tree → Option Tree → Prop}
  {members front behind : List (String × Tree)} {name : String} {tree tree' : Tree}

theorem rel_self {β : Type} {related : β → β → Prop} (refl : ∀ value, related value value)
    (value : Option β) : Option.Rel related value value := by
  cases value with
  | none => exact .none
  | some value => exact .some (refl value)

/-- A member with a name of its own changes nothing, and one under a key may stand there if nothing else does
and it may stand for nothing. -/
theorem Key.inObject?_cons {entry : α} (refl : ∀ value, same entry value value)
    (absent : (key entry).name = name →
      (key entry).values members = [] ∧ (key entry).presence ≠ .required ∧ same entry none (some tree)) :
    Option.Rel (same entry) ((key entry).inObject? members)
      ((key entry).inObject? ((name, tree) :: members)) := by
  by_cases here : (key entry).name = name
  · obtain ⟨missing, optional, alike⟩ := absent here
    have single : (key entry).values ((name, tree) :: members) = [tree] := by
      rw [values_cons_self here, missing]
    rw [inObject?_of_nil missing, if_neg optional, inObject?_of_singleton single]
    exact .some alike
  · have unchanged : (key entry).inObject? ((name, tree) :: members) = (key entry).inObject? members :=
      inObject?_congr (.of_eq (values_cons_of_ne here))
    rw [unchanged]
    exact rel_self refl _

/-- The value of a member may be replaced with one that may stand for it under its key. -/
theorem Key.inObject?_replace {entry : α} (refl : ∀ value, same entry value value)
    (alike : (key entry).name = name → same entry (some tree) (some tree')) :
    Option.Rel (same entry) ((key entry).inObject? (front ++ (name, tree) :: behind))
      ((key entry).inObject? (front ++ (name, tree') :: behind)) := by
  by_cases here : (key entry).name = name
  · have parts (tree : Tree) : (key entry).values (front ++ (name, tree) :: behind) =
        (key entry).values front ++ tree :: (key entry).values behind := by
      rw [values_append, values_cons_self here]
    by_cases alone : (key entry).values front = [] ∧ (key entry).values behind = []
    · have single (tree : Tree) : (key entry).values (front ++ (name, tree) :: behind) = [tree] := by
        rw [parts, alone.1, alone.2, List.nil_append]
      rw [inObject?_of_singleton (single tree), inObject?_of_singleton (single tree')]
      exact .some (alike here)
    · have many (tree : Tree) : 2 ≤ ((key entry).values (front ++ (name, tree) :: behind)).length := by
        rw [not_and_or, ← ne_eq, ← ne_eq, ← List.length_pos_iff, ← List.length_pos_iff] at alone
        rw [parts, List.length_append, List.length_cons]
        omega
      rw [inObject?_of_many (many tree), inObject?_of_many (many tree')]
      exact .none
  · have unchanged (tree : Tree) : (key entry).inObject? (front ++ (name, tree) :: behind) =
        (key entry).inObject? (front ++ behind) := by
      refine inObject?_congr (.of_eq ?_)
      rw [values_append, values_append, values_cons_of_ne here]
    rw [unchanged, unchanged]
    exact rel_self refl _

/-- Two lists have a value for each entry, and those for the same entry may stand for each other. -/
inductive Alike (same : α → Option Tree → Option Tree → Prop) :
    List α → List (Option Tree) → List (Option Tree) → Prop
  | nil : Alike same [] [] []
  | cons {entry : α} {entries : List α} {value value' : Option Tree} {values values' : List (Option Tree)}
      (here : same entry value value') (rest : Alike same entries values values') :
      Alike same (entry :: entries) (value :: values) (value' :: values')

namespace Alike

variable {entries : List α}

/-- A value for one more entry. -/
theorem rel_cons {entry : α} {value value' : Option (Option Tree)}
    {values values' : Option (List (Option Tree))} (here : Option.Rel (same entry) value value')
    (rest : Option.Rel (Alike same entries) values values') :
    Option.Rel (Alike same (entry :: entries))
      (value >>= fun first => values >>= fun others => some (first :: others))
      (value' >>= fun first => values' >>= fun others => some (first :: others)) := by
  cases here with
  | none => exact .none
  | some here =>
    cases rest with
    | none => exact .none
    | some rest => exact .some (.cons here rest)

/-- The values in two objects. -/
theorem of_objects {members members' : List (String × Tree)}
    (each : ∀ entry ∈ entries, Option.Rel (same entry) ((key entry).inObject? members)
      ((key entry).inObject? members')) :
    Option.Rel (Alike same entries) ((Tree.ofMembers members).record? (entries.map key))
      ((Tree.ofMembers members').record? (entries.map key)) := by
  rw [Tree.record?_ofMembers, Tree.record?_ofMembers]
  induction entries with
  | nil => exact .some .nil
  | cons entry entries ih =>
    rw [List.forall_mem_cons] at each
    rw [List.map_cons, List.mapM_cons, List.mapM_cons]
    exact rel_cons each.1 (ih each.2)

theorem inArray?_cons (key : Key) (keys : List Key) (item : Tree) (items : List Tree) :
    inArray? (key :: keys) (item :: items) =
      some (some item) >>= fun first => inArray? keys items >>= fun others => some (first :: others) := by
  rw [inArray?]
  cases inArray? keys items <;> rfl

/-- The values in an object, and in the array of what stands for them. -/
theorem of_array {items : List Tree}
    (each : List.Forall₂ (fun entry item =>
      Option.Rel (same entry) ((key entry).inObject? members) (some (some item))) entries items) :
    Option.Rel (Alike same entries) ((Tree.ofMembers members).record? (entries.map key))
      ((Tree.array items).record? (entries.map key)) := by
  rw [Tree.record?_ofMembers, Tree.record?]
  induction each with
  | nil => exact .some .nil
  | cons here _ ih =>
    rw [List.map_cons, List.mapM_cons, inArray?_cons]
    exact rel_cons here ih

/-- The values in an array may stand for themselves. -/
theorem rel_inArray? (refl : ∀ entry value, same entry value value) (items : List Tree) :
    Option.Rel (Alike same entries) (inArray? (entries.map key) items)
      (inArray? (entries.map key) items) := by
  induction entries generalizing items with
  | nil =>
    cases items with
    | nil => exact .some .nil
    | cons item items => exact .none
  | cons entry entries ih =>
    rw [List.map_cons]
    cases items with
    | nil =>
      have rest := ih []
      rw [inArray?]
      split
      · cases filled : inArray? (entries.map key) [] with
        | none => exact .none
        | some values =>
          rw [filled] at rest
          cases rest with
          | some rest => exact .some (.cons (refl entry none) rest)
      · exact .none
    | cons item items =>
      rw [inArray?_cons]
      exact rel_cons (.some (refl entry _)) (ih items)

/-- The values in two arrays that differ in one of them. -/
theorem of_arrays {front behind : List Tree} (refl : ∀ entry value, same entry value value)
    (alike : ∀ entry, entries[front.length]? = some entry → same entry (some tree) (some tree')) :
    Option.Rel (Alike same entries) ((Tree.array (front ++ tree :: behind)).record? (entries.map key))
      ((Tree.array (front ++ tree' :: behind)).record? (entries.map key)) := by
  rw [Tree.record?, Tree.record?]
  induction front generalizing entries with
  | nil =>
    cases entries with
    | nil => exact .none
    | cons entry entries =>
      rw [List.map_cons, List.nil_append, List.nil_append, inArray?_cons, inArray?_cons]
      exact rel_cons (.some (alike entry rfl)) (rel_inArray? refl behind)
  | cons item front ih =>
    cases entries with
    | nil => exact .none
    | cons entry entries =>
      rw [List.map_cons, List.cons_append, List.cons_append, inArray?_cons, inArray?_cons]
      exact rel_cons (.some (refl entry _)) (ih alike)

end Alike

end Json

end WireProtocol
