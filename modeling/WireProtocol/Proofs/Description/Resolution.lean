import WireProtocol.Description.Basic

/-!
# What names stand for

* `LastAlias`, `StandsFor`: the name behind a name, by the aliases that have been declared. The last
  alias of a name counts, and what it names is not looked up again.
* `Description.ResolvesBy`: domains resolve by aliases.
* `Description.resolvesBy`: those of a description resolve by the aliases that it has been given.
-/

namespace WireProtocol

/-- The pair is the last one of its alias. -/
def LastAlias (aliases : List (String × String)) (name target : String) : Prop :=
  ∃ before after, aliases = before ++ (name, target) :: after ∧ ∀ later ∈ after, later.1 ≠ name

/-- The name stands for the other one, by aliases in the order of their declaration. -/
inductive StandsFor (aliases : List (String × String)) (name : String) : String → Prop
  | declared {target : String} (last : LastAlias aliases name target) : StandsFor aliases name target
  | itself (undeclared : ∀ own ∈ aliases, own.1 ≠ name) : StandsFor aliases name name

variable {aliases : List (String × String)} {name target : String}

/-- The last alias of a name is the first one from behind. -/
theorem lastAlias_iff : LastAlias aliases name target ↔
    aliases.reverse.lookup name = some target := by
  rw [List.lookup_eq_some_iff]
  constructor
  · rintro ⟨before, after, rfl, others⟩
    refine ⟨after.reverse, before.reverse, by simp, fun later inside => ?_⟩
    exact bne_iff_ne.mpr (others later (List.mem_reverse.mp inside)).symm
  · rintro ⟨after, before, parts, others⟩
    refine ⟨before.reverse, after.reverse, ?_, fun later inside => ?_⟩
    · rw [← aliases.reverse_reverse, parts]
      simp
    · exact (bne_iff_ne.mp (others later (List.mem_reverse.mp inside))).symm

theorem undeclared_iff : (∀ own ∈ aliases, own.1 ≠ name) ↔ aliases.reverse.lookup name = none := by
  rw [List.lookup_eq_none_iff]
  simp only [List.mem_reverse, bne_iff_ne, ne_comm]

theorem standsFor_iff : StandsFor aliases name target ↔
    (aliases.reverse.lookup name).getD name = target := by
  constructor
  · rintro (last | none)
    · rw [lastAlias_iff.mp last, Option.getD_some]
    · rw [undeclared_iff.mp none, Option.getD_none]
  · rintro rfl
    cases found : aliases.reverse.lookup name with
    | none => exact .itself (undeclared_iff.mpr found)
    | some last => exact .declared (lastAlias_iff.mpr found)

/-- A name stands for no other one. -/
theorem StandsFor.unique {target' : String} (h : StandsFor aliases name target)
    (h' : StandsFor aliases name target') : target = target' :=
  (standsFor_iff.mp h).symm.trans (standsFor_iff.mp h')

namespace Description

/-- The wire type of a domain is the one whose name it stands for, by the aliases. If it stands for no
wire type's name, even if for that of another alias, then it is reported as it was asked for. -/
structure ResolvesBy (d : Description) (aliases : List (String × String)) : Prop where
  known : ∀ domain ty, d.resolve domain = .ok ty ↔ StandsFor aliases domain ty.name
  unknown : ∀ domain e, d.resolve domain = .error e ↔
    e = .unknownDomain domain ∧ ∀ ty : WireType, ¬ StandsFor aliases domain ty.name
  once : ∀ domain between : String, StandsFor aliases domain between →
    (∀ ty : WireType, ty.name ≠ between) → d.resolve domain = .error (.unknownDomain domain)

variable {d : Description}

/-- The domains of a description resolve by the aliases that it has been given. -/
theorem resolvesBy (given : d.domains = aliases.reverse) : d.ResolvesBy aliases := by
  have target (domain : String) : StandsFor aliases domain (d.target domain) := by
    rw [standsFor_iff, Description.target, given]
  have known (domain : String) (ty : WireType) :
      d.resolve domain = .ok ty ↔ StandsFor aliases domain ty.name := by
    rw [resolve]
    constructor
    · intro resolved
      split at resolved
      · next found =>
        cases resolved
        rw [WireType.name_of_ofName? found]
        exact target domain
      · cases resolved
    · intro named
      rw [(target domain).unique named, WireType.ofName?_name]
  have unknown (domain : String) (e : DescriptionError) : d.resolve domain = .error e ↔
      e = .unknownDomain domain ∧ ∀ ty : WireType, ¬ StandsFor aliases domain ty.name := by
    simp only [← known, resolve]
    cases WireType.ofName? (d.target domain) <;> simp [eq_comm]
  refine ⟨known, unknown, fun domain between stands none => (unknown _ _).mpr ⟨rfl, fun ty named => ?_⟩⟩
  exact none ty (named.unique stands)

end Description

end WireProtocol
