import WireProtocol.Proofs.Description.Defaults
import WireProtocol.Proofs.Description.Tags
import WireProtocol.Proofs.Outcome

/-!
# Requirements on descriptions

* `Requirement`: something that an outline has to be like to be a description.
* `Requirement.Violated`: the requirement is not met, and what is reported then.
* `Requirement.failure?`: what is reported for a requirement, computed.
* `Outline.requirements`: the requirements on an outline, in the order in which they count.
* `Outline.Sound`, `Outline.sound_iff`: the outlines that meet all of them.
-/

namespace WireProtocol

/-- The properties of a class, and behind them the arguments of its methods. -/
def ClassOutline.fields (c : ClassOutline) : List FieldOutline :=
  c.properties ++ c.methods.flatMap (·.arguments)

/-- Something that an outline has to be like to be a description. -/
inductive Requirement where
  | tag (c : ConstantOutline)
  | domain (f : FieldOutline)
  | default (f : FieldOutline)
  | count (c : ClassOutline)

namespace Requirement

/-- The requirement is not met, and the error tells which one and why. -/
inductive Violated : Requirement → DescriptionError → Prop
  | tag {c : ConstantOutline} (unknown : ∀ errorClass, ¬ ErrorClass.Spells c.tag errorClass) :
    Violated (tag c) (.unknownErrorClass c.name c.tag)
  | domain {f : FieldOutline} (noDomain : f.domainName = none) (noType : f.typeName = none) :
    Violated (domain f) (.missingDomain f.name)
  | default {f : FieldOutline} {value : Json.Value} (written : f.default = some value)
    (unsupported : ¬ value.IsDefault) : Violated (default f) (.unsupportedDefault f.name value)
  | count {c : ClassOutline} (many : 15 < c.properties.length) :
    Violated (count c) (.tooManyProperties c.name c.properties.length)

/-- The requirement is met. -/
def Holds (requirement : Requirement) : Prop :=
  ∀ e, ¬ requirement.Violated e

/-- The error for a requirement that is not met. -/
def failure? : Requirement → Option DescriptionError
  | .tag c =>
    match ErrorClass.ofTag? c.tag with
    | some _ => none
    | none => some (.unknownErrorClass c.name c.tag)
  | .domain f =>
    match f.domainName.or f.typeName with
    | some _ => none
    | none => some (.missingDomain f.name)
  | .default f =>
    match f.default with
    | some value =>
      if (DefaultValue.ofJson? value).isSome then none else some (.unsupportedDefault f.name value)
    | none => none
  | .count c =>
    if c.properties.length ≤ maxProperties then none
    else some (.tooManyProperties c.name c.properties.length)

theorem failure?_eq_some_iff {requirement : Requirement} {e : DescriptionError} :
    requirement.failure? = some e ↔ requirement.Violated e := by
  cases requirement with
  | tag c =>
    rw [failure?]
    cases found : ErrorClass.ofTag? c.tag with
    | some errorClass =>
      refine iff_of_false nofun fun violated => ?_
      cases violated with
      | tag unknown => exact unknown errorClass (ErrorClass.ofTag?_eq_some_iff.mp found)
    | none =>
      constructor
      · intro reported
        cases reported
        exact .tag (ErrorClass.ofTag?_eq_none_iff.mp found)
      · intro violated
        cases violated
        rfl
  | domain f =>
    rw [failure?]
    cases found : f.domainName.or f.typeName with
    | some name =>
      refine iff_of_false nofun fun violated => ?_
      cases violated with
      | domain noDomain noType =>
        rw [noDomain, noType] at found
        cases found
    | none =>
      obtain ⟨noDomain, noType⟩ := Option.or_eq_none_iff.mp found
      constructor
      · intro reported
        cases reported
        exact .domain noDomain noType
      · intro violated
        cases violated
        rfl
  | default f =>
    rw [failure?]
    cases written : f.default with
    | none =>
      refine iff_of_false nofun fun violated => ?_
      cases violated with
      | default written' => cases written.symm.trans written'
    | some value =>
      dsimp only
      by_cases supported : value.IsDefault
      · rw [if_pos (DefaultValue.isSome_ofJson?_iff.mpr supported)]
        refine iff_of_false nofun fun violated => ?_
        cases violated with
        | default written' unsupported =>
          cases written.symm.trans written'
          exact unsupported supported
      · rw [if_neg (DefaultValue.isSome_ofJson?_iff.not.mpr supported)]
        constructor
        · intro reported
          cases reported
          exact .default written supported
        · intro violated
          cases violated with
          | default written' =>
            cases written.symm.trans written'
            rfl
  | count c =>
    rw [failure?]
    constructor
    · intro reported
      split at reported
      · cases reported
      · next many =>
        cases reported
        exact .count (Nat.lt_of_not_le many)
    · intro violated
      cases violated with
      | count many => exact if_neg (Nat.not_le_of_lt many)

theorem failure?_eq_none_iff {requirement : Requirement} :
    requirement.failure? = none ↔ requirement.Holds := by
  simp only [Holds, ← failure?_eq_some_iff, Option.eq_none_iff_forall_ne_some, ne_eq]

/-- A field has a domain or a type, and its default is supported. -/
def ofField (f : FieldOutline) : List Requirement :=
  [domain f, default f]

/-- The fields of a class come before the number of its properties. -/
def ofClass (c : ClassOutline) : List Requirement :=
  c.fields.flatMap ofField ++ [count c]

end Requirement

/-- The requirements on an outline, in the order in which they count. -/
def Outline.requirements (o : Outline) : List Requirement :=
  o.constants.map .tag ++ o.classes.flatMap Requirement.ofClass

namespace Requirement

theorem holds_tag_iff {c : ConstantOutline} :
    (tag c).Holds ↔ ∃ errorClass, ErrorClass.Spells c.tag errorClass := by
  constructor
  · intro holds
    by_contra none
    exact holds _ (.tag (not_exists.mp none))
  · rintro ⟨errorClass, spelled⟩ e violated
    cases violated with
    | tag unknown => exact unknown errorClass spelled

theorem holds_domain_iff {f : FieldOutline} :
    (domain f).Holds ↔ f.domainName ≠ none ∨ f.typeName ≠ none := by
  constructor
  · intro holds
    by_contra none
    rw [not_or, not_not, not_not] at none
    exact holds _ (.domain none.1 none.2)
  · rintro some e violated
    cases violated with
    | domain noDomain noType => exact some.elim (absurd noDomain) (absurd noType)

theorem holds_default_iff {f : FieldOutline} :
    (default f).Holds ↔ ∀ value, f.default = some value → value.IsDefault := by
  constructor
  · intro holds value written
    by_contra unsupported
    exact holds _ (.default written unsupported)
  · intro supported e violated
    cases violated with
    | default written unsupported => exact unsupported (supported _ written)

theorem holds_count_iff {c : ClassOutline} : (count c).Holds ↔ c.properties.length ≤ 15 := by
  constructor
  · intro holds
    by_contra many
    exact holds _ (.count (Nat.lt_of_not_le many))
  · intro few e violated
    cases violated with
    | count many => exact absurd many (Nat.not_lt.mpr few)

end Requirement

/-- The outline is that of a description: its tags are known, its fields have domains and supported
defaults, and its classes have room for their properties. -/
structure Outline.Sound (o : Outline) : Prop where
  tags : ∀ c ∈ o.constants, ∃ errorClass, ErrorClass.Spells c.tag errorClass
  domains : ∀ c ∈ o.classes, ∀ f ∈ c.fields, f.domainName ≠ none ∨ f.typeName ≠ none
  defaults : ∀ c ∈ o.classes, ∀ f ∈ c.fields, ∀ value, f.default = some value → value.IsDefault
  counts : ∀ c ∈ o.classes, c.properties.length ≤ 15

/-- All requirements are met by the outlines of descriptions, and by no others. -/
theorem Outline.sound_iff {o : Outline} :
    o.Sound ↔ ∀ requirement ∈ o.requirements, requirement.Holds := by
  rw [requirements, List.forall_mem_append, List.forall_mem_map, List.forall_mem_flatMap]
  simp only [Requirement.ofClass, List.forall_mem_append, List.forall_mem_flatMap,
    Requirement.ofField, List.forall_mem_cons, List.not_mem_nil, false_imp_iff, implies_true, and_true,
    Requirement.holds_tag_iff, Requirement.holds_domain_iff, Requirement.holds_default_iff,
    Requirement.holds_count_iff]
  constructor
  · rintro ⟨tags, domains, defaults, counts⟩
    exact ⟨tags, fun c own => ⟨fun f inside => ⟨domains c own f inside, defaults c own f inside⟩,
      counts c own⟩⟩
  · rintro ⟨tags, classes⟩
    exact ⟨tags, fun c own f inside => ((classes c own).1 f inside).1,
      fun c own f inside => ((classes c own).1 f inside).2, fun c own => (classes c own).2⟩

end WireProtocol
