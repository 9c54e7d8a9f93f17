import WireProtocol.Proofs.Config.RuntimePath
import WireProtocol.Proofs.Description.Resolution
import WireProtocol.Proofs.Emit.Relabelling
import WireProtocol.Proofs.Emit.Yields

/-!
# Domains matter only through what they resolve to

* `Description.primitive`: a description without aliases, with every field in the domain that is named
  as the type of the field.
* `Description.SameLastAliases`: descriptions that differ at most in the order of their aliases and in
  those that are hidden by later ones.
* `domains_matter_by_types`: neither makes a difference to the code that is generated.
-/

namespace WireProtocol

namespace Description

variable {d d' : Description}

/-! ## Primitive names for domains -/

/-- The name of the type of a field. A field without a type keeps its domain. -/
def primitiveName (d : Description) (field : Field) : String :=
  match d.fieldType field with
  | .ok ty => ty.name
  | .error _ => field.domain

/-- The description without aliases, with every argument and every property in the domain that is named
as its type. -/
def primitive (d : Description) : Description :=
  { d with
    domains := []
    classes := d.classes.map (Class.relabel d.primitiveName)
    bounded := by
      intro c member
      obtain ⟨own, inside, rfl⟩ := List.mem_map.mp member
      exact Nat.le_trans (Nat.le_of_eq (List.length_map _)) (d.bounded own inside) }

theorem fieldType_primitive {field : Field} (resolved : d.Resolves field) :
    d.primitive.fieldType (field.relabel d.primitiveName) = d.fieldType field := by
  obtain ⟨ty, known⟩ := resolved
  have named : (field.relabel d.primitiveName).domain = ty.name := by
    rw [Field.relabel, primitiveName, known]
  have resolves : d.primitive.ResolvesBy [] := resolvesBy rfl
  rw [known, fieldType, named]
  exact (resolves.known _ ty).mpr (.itself nofun)

/-- What has been generated shows that all fields have types, so that these can name their domains. -/
theorem relabels_primitive {grammar : PathGrammar} {config : Config} {artifacts : Artifacts}
    (generated : (generate grammar d config).1 = .ok artifacts) :
    Relabels d.primitiveName d d.primitive where
  version := rfl
  port := rfl
  constants := rfl
  classes := rfl
  arguments := by
    intro method member field inside
    obtain ⟨ty, known, -⟩ := generate_arguments generated method member field inside
    exact fieldType_primitive ⟨ty, known⟩
  properties := by
    intro c member field inside
    exact fieldType_primitive (generate_properties generated c member field inside)

/-! ## Other aliases -/

/-- The aliases, in the order of their declaration. -/
def aliases (d : Description) : List (String × String) :=
  d.domains.reverse

theorem aliases_withDomain (d : Description) (name target : String) :
    (d.withDomain name target).aliases = d.aliases ++ [(name, target)] :=
  List.reverse_cons

/-- The descriptions have the same parts, and the last alias of every name is the same in both. Others may
differ, and so may their order. -/
structure SameLastAliases (d d' : Description) : Prop where
  version : d'.version = d.version
  port : d'.port = d.port
  constants : d'.constants = d.constants
  classes : d'.classes = d.classes
  aliases : ∀ name target, LastAlias d'.aliases name target ↔ LastAlias d.aliases name target

theorem SameLastAliases.resolve_eq (h : d.SameLastAliases d') (domain : String) :
    d'.resolve domain = d.resolve domain := by
  have last : d'.domains.lookup domain = d.domains.lookup domain := by
    refine Option.ext fun target => ?_
    have same := h.aliases domain target
    rwa [lastAlias_iff, lastAlias_iff, Description.aliases, Description.aliases, List.reverse_reverse,
      List.reverse_reverse] at same
  rw [resolve, resolve, Description.target, Description.target, last]

/-- Every field keeps its domain, which resolves to the same type. -/
theorem SameLastAliases.relabels (h : d.SameLastAliases d') : Relabels Field.domain d d' where
  version := h.version
  port := h.port
  constants := h.constants
  classes := by
    rw [h.classes, List.map_id'' Class.relabel_domain]
  arguments := fun _ _ field _ => h.resolve_eq field.domain
  properties := fun _ _ field _ => h.resolve_eq field.domain

end Description

/-- A description from which code is generated leads to the same code, and the same is reported, when its
aliases are dropped and all fields are in the domains that are named as their types. Descriptions with the
same last aliases lead to the same anyway. -/
theorem domains_matter_by_types (grammar : PathGrammar) (config : Config) :
    (∀ d artifacts, (generate grammar d config).1 = .ok artifacts →
      generate grammar d.primitive config = generate grammar d config) ∧
    ∀ d d' : Description, d.SameLastAliases d' → generate grammar d' config = generate grammar d config :=
  ⟨fun _ _ generated => (Description.relabels_primitive generated).generate_eq grammar config,
    fun _ _ same => same.relabels.generate_eq grammar config⟩

namespace HiddenNames

def config : Config := ⟨"rt", "framing"⟩

/-- A class with a method and a property, whose fields are in domains that hide names of wire types. -/
def basic : Class :=
  ((Class.new 60 "basic").withProperty (.new "kind" "bit" none)).withMethod
    (((Method.new 10 "qos").withArgument (.new "no-wait" "flag" (some (.bool true)))).withArgument
      (.new "size" "bit" none))

/-- A protocol with that class and no aliases. -/
def plain : Description :=
  { Description.new ⟨0, 9, 1⟩ 5672 with
    classes := [basic]
    constants := [⟨"internal-error", 541, .hard⟩]
    bounded := by decide }

def own : Description :=
  ((plain.withDomain "flag" "short").withDomain "bit" "octet").withDomain "flag" "bit"

/-- The same aliases in another order, which leaves the last one of each name. -/
def other : Description :=
  ((plain.withDomain "bit" "octet").withDomain "flag" "short").withDomain "flag" "bit"

theorem exists_generated : ∃ artifacts, (generate .names own config).1 = .ok artifacts := by
  have complete : (generate .names own config).1.isOk = true := by
    unfold generate generateSteps
    rw [Config.runtimePath_of_rt rfl]
    decide +kernel
  exact Except.exists_eq_ok_of_isOk complete

theorem sameLastAliases : own.SameLastAliases other where
  version := rfl
  port := rfl
  constants := rfl
  classes := rfl
  aliases := by
    intro name target
    rw [lastAlias_iff, lastAlias_iff]
    simp only [own, other, Description.aliases_withDomain, List.reverse_append, List.reverse_singleton,
      List.singleton_append, List.lookup_cons]
    cases name == "flag" <;> simp only

/-- What is in the domain of octets that goes by the name of bits is an octet, and what is in the domain
of flags is a bit. -/
theorem hidden_names_are_resolved :
    own.primitive.aliases = [] ∧
    (own.primitive.methods.flatMap fun m => m.arguments.toList.map (·.domain)) = ["bit", "octet"] ∧
    generate .names own.primitive config = generate .names own config ∧
    generate .names other config = generate .names own config := by
  obtain ⟨artifacts, generated⟩ := exists_generated
  obtain ⟨primitive, reordered⟩ := domains_matter_by_types .names config
  exact ⟨rfl, by decide +kernel, primitive own artifacts generated, reordered own other sameLastAliases⟩

end HiddenNames

end WireProtocol
