import WireProtocol.Proofs.Emit.FirstFailure

/-!
# What a generation reports

* `Gen.Logs`: a generation reports the same events, and ends in the same way, whatever has been reported
  before.
* `Stage`: what is reported at once, and the conditions that are looked at before anything else is.
* `Stage.reported`: the stages up to the first one with a condition that is not met.
* `Gen.Follows`: a generation reports and fails as its stages do. Those of several steps come one after
  another.
* `Description.stages`: the stages of a generation. Their conditions are those of the description.
* `generate_follows_trace`: a generation reports the beginning of one trace, and how much of it.
-/

namespace WireProtocol

namespace Gen

variable {α β : Type}

/-- The generation reports these events behind all earlier ones, and its outcome does not depend on
those. -/
def Logs (gen : Gen α) (log : List Event) : Prop :=
  ∀ events, ExceptT.run gen events = (gen.run.1, events ++ log)

namespace Logs

variable {log log' : List Event}

theorem run_eq {gen : Gen α} (h : gen.Logs log) : gen.run = (gen.run.1, log) :=
  h []

theorem pure (value : α) : (Pure.pure value : Gen α).Logs [] :=
  fun events => congrArg _ (List.append_nil events).symm

theorem ofExcept (result : Except GenerateError α) : (Gen.ofExcept result).Logs [] :=
  fun events => congrArg _ (List.append_nil events).symm

theorem report (event : Event) : (Gen.report event).Logs [event] :=
  fun _ => rfl

/-- A step that ends with an error is the last one that reports anything. -/
theorem bind_of_error {step : Gen α} {next : α → Gen β} {e : GenerateError} (h : step.Logs log)
    (failed : step.run.1 = .error e) : (step >>= next).Logs log := by
  have stopped (events : List Event) :
      ExceptT.run (step >>= next) events = (.error e, events ++ log) :=
    ExceptT.run_bind_of_error next (failed ▸ h events)
  intro events
  rw [Gen.run, stopped, stopped]

/-- The events of a second step follow those of the first. -/
theorem bind_of_ok {step : Gen α} {next : α → Gen β} {value : α} (h : step.Logs log)
    (ended : step.run.1 = .ok value) (others : (next value).Logs log') :
    (step >>= next).Logs (log ++ log') := by
  have went (events : List Event) :
      ExceptT.run (step >>= next) events = ((next value).run.1, events ++ (log ++ log')) := by
    rw [ExceptT.run_bind_of_ok next (ended ▸ h events), others, List.append_assoc]
  intro events
  rw [Gen.run, went, went]

/-- Steps behind which nothing is reported add nothing. -/
theorem silently {step : Gen α} {next : α → Gen β} (h : step.Logs log)
    (others : ∀ value, (next value).Logs []) : (step >>= next).Logs log := by
  cases ended : step.run.1 with
  | ok value =>
    have went := h.bind_of_ok ended (others value)
    rwa [List.append_nil] at went
  | error e => exact h.bind_of_error ended

theorem mapM_silent {step : α → Gen β} {xs : List α} (h : ∀ x ∈ xs, (step x).Logs []) :
    (xs.mapM step).Logs [] := by
  induction xs with
  | nil => exact pure []
  | cons x xs ih =>
    rw [List.forall_mem_cons] at h
    rw [List.mapM_cons]
    cases ended : (step x).run.1 with
    | ok y => exact h.1.bind_of_ok ended ((ih h.2).silently fun ys => pure (y :: ys))
    | error e => exact h.1.bind_of_error ended

end Logs

end Gen

/-! ## Stages -/

/-- A part of a generation: what it reports at its start, and what it depends on then. -/
structure Stage where
  events : List Event
  conditions : List Condition

namespace Stage

open Condition

variable {grammar : PathGrammar} {d : Description} {config : Config}

/-- What is reported up to the first stage that has a condition that is not met. -/
def reported (grammar : PathGrammar) (d : Description) (config : Config) : List Stage → List Event
  | [] => []
  | stage :: stages =>
    stage.events ++
      match first? grammar d config stage.conditions with
      | none => reported grammar d config stages
      | some _ => []

theorem reported_singleton (stage : Stage) : reported grammar d config [stage] = stage.events := by
  rw [reported]
  cases first? grammar d config stage.conditions <;> exact List.append_nil _

/-- Stages whose conditions are met are reported as a whole. -/
theorem reported_append_of_met {stages : List Stage}
    (met : first? grammar d config (stages.flatMap (·.conditions)) = none) (others : List Stage) :
    reported grammar d config (stages ++ others) =
      stages.flatMap (·.events) ++ reported grammar d config others := by
  induction stages with
  | nil => rfl
  | cons stage stages ih =>
    rw [List.flatMap_cons, first?_append, Option.or_eq_none_iff] at met
    rw [List.cons_append, reported, met.1, List.flatMap_cons, List.append_assoc]
    exact congrArg (stage.events ++ ·) (ih met.2)

theorem reported_of_met {stages : List Stage}
    (met : first? grammar d config (stages.flatMap (·.conditions)) = none) :
    reported grammar d config stages = stages.flatMap (·.events) := by
  have all := reported_append_of_met met []
  rwa [List.append_nil, reported, List.append_nil] at all

/-- Nothing is reported behind stages with a condition that is not met. -/
theorem reported_append_of_unmet {stages : List Stage} {e : GenerateError}
    (unmet : first? grammar d config (stages.flatMap (·.conditions)) = some e) (others : List Stage) :
    reported grammar d config (stages ++ others) = reported grammar d config stages := by
  induction stages with
  | nil => cases unmet
  | cons stage stages ih =>
    rw [List.flatMap_cons, first?_append] at unmet
    rw [List.cons_append, reported, reported]
    cases here : first? grammar d config stage.conditions with
    | none =>
      rw [here, Option.none_or] at unmet
      exact congrArg (stage.events ++ ·) (ih unmet)
    | some e => rfl

/-- The first stage with a condition that is not met is the last one reported. -/
theorem reported_of_first {before after : List Stage} {stage : Stage} {e : GenerateError}
    (met : first? grammar d config (before.flatMap (·.conditions)) = none)
    (unmet : first? grammar d config stage.conditions = some e) :
    reported grammar d config (before ++ stage :: after) = (before ++ [stage]).flatMap (·.events) := by
  rw [reported_append_of_met met, reported, unmet, List.flatMap_append, List.flatMap_singleton,
    List.append_nil]

theorem reported_prefix (stages : List Stage) :
    reported grammar d config stages <+: stages.flatMap (·.events) := by
  induction stages with
  | nil => exact List.prefix_rfl
  | cons stage stages ih =>
    rw [reported, List.flatMap_cons, List.prefix_append_right_inj]
    cases first? grammar d config stage.conditions with
    | none => exact ih
    | some e => exact List.nil_prefix

end Stage

namespace Gen

open Condition

variable {α β : Type} {grammar : PathGrammar} {d : Description} {config : Config} {stages others : List Stage}

/-- The generation consists of stages: it reports them up to the first one with a condition that is not
met, and ends with the error of that condition. -/
structure Follows (grammar : PathGrammar) (d : Description) (config : Config) (gen : Gen α) (stages : List Stage) : Prop where
  logs : gen.Logs (Stage.reported grammar d config stages)
  ends : gen.Ends (first? grammar d config (stages.flatMap (·.conditions)))

namespace Follows

theorem pure (value : α) : (Pure.pure value : Gen α).Follows grammar d config [] :=
  ⟨.pure value, .pure value⟩

theorem report (event : Event) : (Gen.report event).Follows grammar d config [⟨[event], []⟩] :=
  ⟨.report event, .report event⟩

/-- A step whose error is that of conditions, and which reports something at its start at most. -/
theorem stage {gen : Gen α} {stage : Stage} (logs : gen.Logs stage.events)
    (ends : gen.Ends (first? grammar d config stage.conditions)) : gen.Follows grammar d config [stage] := by
  constructor
  · rwa [Stage.reported_singleton]
  · rwa [List.flatMap_singleton]

theorem quiet {conditions : List Condition} {result : Except GenerateError α}
    (ends : result.Ends (first? grammar d config conditions)) :
    (Gen.ofExcept result).Follows grammar d config [⟨[], conditions⟩] :=
  stage (.ofExcept result) (.ofExcept ends)

/-- A step that reports nothing and has no error is no stage. -/
theorem ofExcept {result : Except GenerateError α} (ends : result.Ends none) :
    (Gen.ofExcept result).Follows grammar d config [] :=
  ⟨.ofExcept result, .ofExcept ends⟩

/-- The stages of a second step follow those of the first. -/
theorem bind {step : Gen α} {next : α → Gen β} (h : step.Follows grammar d config stages)
    (behind : ∀ value, step.Yields value → (next value).Follows grammar d config others) :
    (step >>= next).Follows grammar d config (stages ++ others) := by
  constructor
  · have here : step.run.1.Ends (first? grammar d config (stages.flatMap (·.conditions))) := h.ends []
    cases ended : step.run.1 with
    | ok value =>
      have met := here.exists_ok_iff.mp ⟨value, ended⟩
      rw [Stage.reported_append_of_met met, ← Stage.reported_of_met met]
      exact h.logs.bind_of_ok ended (behind value (.of_run ended)).logs
    | error e =>
      cases unmet : first? grammar d config (stages.flatMap (·.conditions)) with
      | none =>
        obtain ⟨value, ended'⟩ := here.exists_ok_iff.mpr unmet
        cases ended.symm.trans ended'
      | some e' =>
        rw [Stage.reported_append_of_unmet unmet]
        exact h.logs.bind_of_error ended
  · rw [List.flatMap_append, first?_append]
    exact h.ends.bind fun value yields => (behind value yields).ends

/-- What comes behind the last stage is none. -/
theorem last {step : Gen α} {next : α → Gen β} (h : step.Follows grammar d config stages)
    (behind : ∀ value, step.Yields value → (next value).Follows grammar d config []) :
    (step >>= next).Follows grammar d config stages := by
  have all := h.bind behind
  rwa [List.append_nil] at all

/-- A step for each member of a list has a stage for each. -/
theorem mapM {step : α → Gen β} {stage : α → Stage} {xs : List α}
    (h : ∀ x ∈ xs, (step x).Follows grammar d config [stage x]) :
    (xs.mapM step).Follows grammar d config (xs.map stage) := by
  induction xs with
  | nil => exact pure []
  | cons x xs ih =>
    rw [List.forall_mem_cons] at h
    rw [List.mapM_cons]
    exact h.1.bind fun y _ => (ih h.2).last fun ys _ => pure (y :: ys)

end Follows

end Gen

/-! ## The stages of a generation -/

/-- The records of a class are declared. -/
def Class.declaring (c : Class) : Event :=
  .declaringClass c.name c.methods.length

/-- The code for a method is made. -/
def Method.generating (m : Method) : Event :=
  .generatingMethod m.qualifiedName

/-- The code for the properties of a class is made. -/
def Class.generating (c : Class) : Event :=
  .generatingProperties c.name c.properties.length

namespace Stage

open Condition

/-- The records of a class. -/
def ofClass (c : Class) : Stage :=
  ⟨[c.declaring], Condition.ofClass c⟩

/-- The decoder of a method. -/
def ofMethod (m : Method) : Stage :=
  ⟨[m.generating], [functionName ["decode", m.className, m.name]]⟩

/-- The code for the properties of a class. -/
def ofProperties (c : Class) : Stage :=
  ⟨[c.generating], [functionName ["decode", c.name, "properties"],
    functionName ["encode", c.name, "properties"]]⟩

/-- The declarations: the constants, the records, and the choice between the classes. -/
def ofDeclarations (d : Description) : List Stage :=
  ⟨[], d.constants.map constantName⟩ ::
    (d.classes.map ofClass ++ [⟨[], d.classes.map fun c => typeName [c.name]⟩])

/-- The code for methods. The encoders report nothing of their own. -/
def ofMethodCode (d : Description) : List Stage :=
  d.methods.map ofMethod ++ [⟨[], d.methods.map fun m => functionName ["encode", m.className, m.name]⟩]

end Stage

namespace Description

/-- The stages of the code of a description. -/
def programStages (d : Description) : List Stage :=
  Stage.ofDeclarations d ++ (Stage.ofMethodCode d ++ (d.classes.map Stage.ofProperties ++
    [⟨[], Condition.ofExceptions d⟩]))

/-- The stages of a generation that ends with files of a name. -/
def stages (d : Description) (artifact : String) : List Stage :=
  ⟨[.started d.version], []⟩ :: ⟨[], [.runtimePath]⟩ ::
    (d.programStages ++ [⟨[.generated artifact d.classes.length d.constants.length], []⟩])

/-- All that a generation reports that ends with files of a name. -/
def trace (d : Description) (artifact : String) : List Event :=
  .started d.version :: (d.classes.map Class.declaring ++ (d.methods.map Method.generating ++
    (d.classes.map Class.generating ++
      [.generated artifact d.classes.length d.constants.length])))

theorem conditions_ofDeclarations (d : Description) :
    (Stage.ofDeclarations d).flatMap (·.conditions) = Condition.ofDeclarations d := by
  simp only [Stage.ofDeclarations, Condition.ofDeclarations, List.flatMap_append, List.flatMap_cons,
    List.flatMap_nil, List.append_nil, List.flatMap_map]
  rfl

theorem conditions_programStages (d : Description) :
    d.programStages.flatMap (·.conditions) = Condition.ofDeclarations d ++
      (Condition.ofMethodCode d ++ (Condition.ofPropertyCode d ++ Condition.ofExceptions d)) := by
  simp only [programStages, conditions_ofDeclarations, Stage.ofMethodCode, List.flatMap_append,
    List.flatMap_singleton, List.flatMap_map, Stage.ofMethod, Stage.ofProperties,
    ← List.map_eq_flatMap]
  rfl

theorem conditions_stages (d : Description) (artifact : String) :
    (d.stages artifact).flatMap (·.conditions) = d.conditions := by
  simp [stages, conditions, conditions_programStages]

theorem events_stages (d : Description) (artifact : String) :
    (d.stages artifact).flatMap (·.events) = d.trace artifact := by
  simp [stages, trace, programStages, Stage.ofDeclarations, Stage.ofMethodCode, List.flatMap_map,
    Stage.ofClass, Stage.ofMethod, Stage.ofProperties, ← List.map_eq_flatMap]

end Description

/-! ## Steps and their stages -/

open Condition Gen.Logs

variable {grammar : PathGrammar} {d : Description} {config : Config}

namespace Declarations

theorem methodRecord_silent (m : Method) : (methodRecord d m).Logs [] := by
  rw [methodRecord]
  refine (ofExcept _).silently fun record => ?_
  refine (mapM_silent fun field _ => ?_).silently fun arguments => ?_
  · rw [argument]
    exact (ofExcept _).silently fun _ => (ofExcept _).silently fun _ => (ofExcept _).silently
      fun _ => pure _
  · dsimp only
    split <;> exact pure _

theorem propertiesRecord_silent (c : Class) : (propertiesRecord d c).Logs [] := by
  rw [propertiesRecord]
  refine (ofExcept _).silently fun record => ?_
  refine (mapM_silent fun field _ => ?_).silently fun fields => pure _
  rw [property]
  exact (ofExcept _).silently fun _ => (ofExcept _).silently fun _ => pure _

theorem classRecords_logs (c : Class) : (classRecords d c).Logs [c.declaring] := by
  rw [classRecords]
  refine (report _).silently fun _ => ?_
  refine (mapM_silent fun m _ => methodRecord_silent m).silently fun methods => ?_
  exact (propertiesRecord_silent c).silently fun properties => pure _

theorem items_follow (d : Description) :
    (items d).Follows grammar d config (Stage.ofDeclarations d) := by
  rw [items, Stage.ofDeclarations]
  refine (Gen.Follows.quiet (constants_ends d)).bind fun constants _ => ?_
  have emitted : (d.classes.mapM (classRecords d)).Follows grammar d config (d.classes.map Stage.ofClass) :=
    .mapM fun c _ => .stage (classRecords_logs c) (classRecords_ends c)
  refine emitted.bind fun records yields => ?_
  have met : RecordsMet grammar d config := by
    refine .of_ofClass (first?_eq_none_iff.mp ?_)
    rw [← emitted.ends.eq_none yields, List.flatMap_map]
    rfl
  refine (Gen.Follows.ofExcept (methodNames_ends met)).bind fun methodNames _ => ?_
  refine (Gen.Follows.ofExcept (methodChoice_ends met)).bind fun methodChoice _ => ?_
  exact (Gen.Follows.quiet (propertiesChoice_ends met)).last fun _ _ => .pure _

end Declarations

namespace MethodCode

theorem decoder_logs (m : Method) : (decoder d m).Logs [m.generating] := by
  rw [decoder]
  refine (report _).silently fun _ => (ofExcept _).silently fun record => ?_
  exact (ofExcept _).silently fun function => (ofExcept _).silently fun chunks => ofExcept _

theorem items_follow (met : RecordsMet grammar d config) :
    (items d).Follows grammar d config (Stage.ofMethodCode d) := by
  rw [items, Stage.ofMethodCode]
  refine (Gen.Follows.ofExcept (tables_ends met)).bind fun tables _ => ?_
  have decoded : (d.methods.mapM (decoder d)).Follows grammar d config (d.methods.map Stage.ofMethod) := by
    refine .mapM fun m member => .stage (decoder_logs m) ?_
    rw [Stage.ofMethod, first?, List.findSome?_singleton]
    exact decoder_ends met member
  have encoded : (d.methods.mapM (encoder d)).Ends (first? grammar d config
      (d.methods.map fun m => functionName ["encode", m.className, m.name])) := by
    rw [first?_map]
    exact Except.Ends.mapM fun m member => encoder_ends met member
  exact decoded.bind fun decoders _ => (Gen.Follows.quiet encoded).last fun _ _ => .pure _

end MethodCode

namespace PropertyCode

theorem entry_logs (c : Class) : (entry d c).Logs [c.generating] := by
  rw [entry]
  refine (report _).silently fun _ => (ofExcept _).silently fun id => ?_
  refine (ofExcept _).silently fun record => (ofExcept _).silently fun decode => ?_
  refine (ofExcept _).silently fun encode => (ofExcept _).silently fun decoder => ?_
  exact (ofExcept _).silently fun encoder => pure _

theorem items_follow (met : RecordsMet grammar d config)
    (named : ∀ c ∈ d.classes, (typeName [c.name]).Holds grammar d config) :
    (items d).Follows grammar d config (d.classes.map Stage.ofProperties) := by
  rw [items]
  refine Gen.Follows.last (.mapM fun c member => ?_) fun _ _ => .pure _
  exact .stage (entry_logs c) (entry_ends met member (named c member))

end PropertyCode

theorem Program.ofDescription_follows (grammar : PathGrammar) (d : Description) (config : Config) :
    (Program.ofDescription d).Follows grammar d config d.programStages := by
  rw [ofDescription, Description.programStages]
  have declared : (Declarations.items d).Follows grammar d config (Stage.ofDeclarations d) :=
    Declarations.items_follow d
  refine declared.bind fun declarations yields => ?_
  have conditions := first?_eq_none_iff.mp (declared.ends.eq_none yields)
  rw [Description.conditions_ofDeclarations, ofDeclarations, List.forall_mem_append,
    List.forall_mem_append] at conditions
  obtain ⟨-, records, named⟩ := conditions
  have met : RecordsMet grammar d config := .of_ofClass records
  refine (MethodCode.items_follow met).bind fun methods _ => ?_
  refine (PropertyCode.items_follow met (List.forall_mem_map.mp named)).bind fun properties _ => ?_
  exact (Gen.Follows.quiet (LookupCode.items_ends d)).last fun _ _ => .pure _

theorem generateSteps_follows (grammar : PathGrammar) (d : Description) (config : Config) :
    (generateSteps grammar d config).Follows grammar d config
      (d.stages (d.version.artifactName config.artifactStem)) := by
  rw [generateSteps, Description.stages]
  refine (Gen.Follows.report _).bind fun _ _ => ?_
  have path : (config.runtimePath grammar).Ends (first? grammar d config [.runtimePath]) := by
    rw [first?, List.findSome?_singleton]
    exact config.runtimePath_ends grammar
  refine (Gen.Follows.quiet path).bind fun path _ => ?_
  refine (Program.ofDescription_follows grammar d config).bind fun program _ => ?_
  exact (Gen.Follows.report _).last fun _ _ => .pure _

/-! ## How much is reported -/

/-- The error of conditions is that of one of them. -/
theorem Condition.exists_fails {conditions : List Condition} {e : GenerateError}
    (h : first? grammar d config conditions = some e) :
    ∃ condition ∈ conditions, condition.Fails grammar d config e := by
  obtain ⟨condition, member, fails⟩ := List.exists_of_findSome?_eq_some h
  exact ⟨condition, member, failure?_eq_some_iff.mp fails⟩

theorem Condition.exists_first? {conditions : List Condition}
    (unmet : ¬ ∀ condition ∈ conditions, condition.Holds grammar d config) :
    ∃ e, first? grammar d config conditions = some e := by
  rwa [← first?_eq_none_iff, ← ne_eq, Option.ne_none_iff_exists'] at unmet

theorem generate_reported (grammar : PathGrammar) (d : Description) (config : Config) :
    (generate grammar d config).2 =
      Stage.reported grammar d config (d.stages (d.version.artifactName config.artifactStem)) :=
  congrArg Prod.snd (generateSteps_follows grammar d config).logs.run_eq

/-- The stage of the first condition that is not met is the last one reported. -/
theorem generate_stops_in_stage {before : List Stage} {stage : Stage}
    (parts : before ++ [stage] <+: d.stages (d.version.artifactName config.artifactStem))
    (met : ∀ condition ∈ before.flatMap (·.conditions), condition.Holds grammar d config)
    (unmet : ¬ ∀ condition ∈ stage.conditions, condition.Holds grammar d config) :
    (∃ condition ∈ stage.conditions, ∃ e, condition.Fails grammar d config e ∧
        (generate grammar d config).1 = .error e) ∧
      (generate grammar d config).2 = (before ++ [stage]).flatMap (·.events) := by
  obtain ⟨behind, parts⟩ := parts
  rw [← List.append_cons] at parts
  obtain ⟨e, first⟩ := exists_first? unmet
  have met := first?_eq_none_iff.mpr met
  constructor
  · have ends : (generate grammar d config).1.Ends _ := (generateSteps_follows grammar d config).ends []
    rw [← parts, List.flatMap_append, List.flatMap_cons, first?_append, first?_append, met, first]
      at ends
    obtain ⟨condition, member, fails⟩ := exists_fails first
    exact ⟨condition, member, e, fails, ends.eq_error⟩
  · rw [generate_reported, ← parts, Stage.reported_of_first met first]

/-- The last event is missing when there are no files. -/
theorem generate_misses_last {e : GenerateError} (failed : (generate grammar d config).1 = .error e) :
    (generate grammar d config).2 ≠ d.trace (d.version.artifactName config.artifactStem) := by
  let artifact := d.version.artifactName config.artifactStem
  have ends : (generate grammar d config).1.Ends (first? grammar d config d.conditions) := by
    have ends := (generateSteps_follows grammar d config).ends []
    rwa [Description.conditions_stages] at ends
  have unmet : ∃ e, first? grammar d config d.conditions = some e := by
    rw [← Option.ne_none_iff_exists', ne_eq, ← ends.exists_ok_iff, failed]
    simp
  -- The last stage has no conditions, so that one of the others stops the generation.
  obtain ⟨earlier, parts⟩ : ∃ earlier, d.stages artifact =
      earlier ++ [⟨[.generated artifact d.classes.length d.constants.length], []⟩] :=
    ⟨⟨[.started d.version], []⟩ :: ⟨[], [.runtimePath]⟩ :: d.programStages, rfl⟩
  have others : d.conditions = earlier.flatMap (·.conditions) := by
    rw [← d.conditions_stages artifact, parts, List.flatMap_append, List.flatMap_singleton,
      List.append_nil]
  obtain ⟨e', unmet⟩ := unmet
  rw [others] at unmet
  intro whole
  have short : (generate grammar d config).2.length ≤ (earlier.flatMap (·.events)).length := by
    rw [generate_reported, parts, Stage.reported_append_of_unmet unmet]
    exact (Stage.reported_prefix earlier).length_le
  rw [whole, ← Description.events_stages, parts, List.flatMap_append, List.length_append] at short
  exact Nat.not_succ_le_self _ short

/-- A class that cannot be declared is the last one of which anything is reported. -/
theorem generate_stops_in_class {before after : List Class} {c : Class}
    (classes : d.classes = before ++ c :: after)
    (met : ∀ condition ∈ .runtimePath :: (d.constants.map constantName ++ before.flatMap ofClass),
      condition.Holds grammar d config)
    (unmet : ¬ ∀ condition ∈ ofClass c, condition.Holds grammar d config) :
    (∃ condition ∈ ofClass c, ∃ e, condition.Fails grammar d config e ∧ (generate grammar d config).1 = .error e) ∧
      (generate grammar d config).2 = .started d.version :: (before ++ [c]).map Class.declaring := by
  let earlier : List Stage := ⟨[.started d.version], []⟩ :: ⟨[], [.runtimePath]⟩ ::
    ⟨[], d.constants.map constantName⟩ :: before.map Stage.ofClass
  have parts : earlier ++ [Stage.ofClass c] <+:
      d.stages (d.version.artifactName config.artifactStem) := by
    have declared : before.map Stage.ofClass ++ [Stage.ofClass c] <+: d.classes.map Stage.ofClass := by
      rw [classes, ← List.map_singleton, ← List.map_append]
      exact List.IsPrefix.map _ ⟨after, (List.append_cons before c after).symm⟩
    simp only [earlier, Description.stages, Description.programStages, Stage.ofDeclarations,
      List.cons_append, List.append_assoc, List.prefix_cons_inj]
    exact declared.trans (List.prefix_append _ _)
  have conditions : earlier.flatMap (·.conditions) =
      .runtimePath :: (d.constants.map constantName ++ before.flatMap ofClass) := by
    simp [earlier, List.flatMap_map, Stage.ofClass]
  obtain ⟨error, reported⟩ := generate_stops_in_stage parts (conditions ▸ met) unmet
  refine ⟨error, reported.trans ?_⟩
  simp [earlier, List.flatMap_map, Stage.ofClass, ← List.map_eq_flatMap]

/-- When only the exceptions are at fault, nothing but the last event is missing. -/
theorem generate_stops_at_exceptions
    (met : ∀ condition ∈ .runtimePath :: (ofDeclarations d ++ (ofMethodCode d ++ ofPropertyCode d)),
      condition.Holds grammar d config)
    (unmet : ¬ ∀ condition ∈ ofExceptions d, condition.Holds grammar d config) :
    (∃ condition ∈ ofExceptions d, ∃ e, condition.Fails grammar d config e ∧
        (generate grammar d config).1 = .error e) ∧
      d.trace (d.version.artifactName config.artifactStem) = (generate grammar d config).2 ++
        [.generated (d.version.artifactName config.artifactStem) d.classes.length
          d.constants.length] := by
  let artifact := d.version.artifactName config.artifactStem
  let earlier : List Stage := ⟨[.started d.version], []⟩ :: ⟨[], [.runtimePath]⟩ ::
    (Stage.ofDeclarations d ++ (Stage.ofMethodCode d ++ d.classes.map Stage.ofProperties))
  have parts : d.stages artifact = earlier ++ [⟨[], ofExceptions d⟩] ++
      [⟨[.generated artifact d.classes.length d.constants.length], []⟩] := by
    simp [earlier, Description.stages, Description.programStages]
  have conditions : .runtimePath :: (ofDeclarations d ++ (ofMethodCode d ++ ofPropertyCode d)) =
      earlier.flatMap (·.conditions) := by
    have all := d.conditions_stages artifact
    rw [parts, List.flatMap_append, List.flatMap_append, List.flatMap_singleton,
      List.flatMap_singleton, List.append_nil, Description.conditions] at all
    refine List.append_cancel_right (all.trans ?_).symm
    simp
  obtain ⟨error, reported⟩ :=
    generate_stops_in_stage ⟨_, parts.symm⟩ (conditions ▸ met) unmet
  refine ⟨error, ?_⟩
  rw [reported, ← Description.events_stages, parts]
  exact List.flatMap_append

/-- A generation reports the beginning of the trace of its description, and all of it exactly when it ends
with files. When a class cannot be declared, the declarations up to that of the class are reported and
nothing behind them. When only the exceptions are at fault, everything but the last event is reported. -/
theorem generate_follows_trace (grammar : PathGrammar) (d : Description) (config : Config) :
    (generate grammar d config).2 <+: d.trace (d.version.artifactName config.artifactStem) ∧
    ((generate grammar d config).2 = d.trace (d.version.artifactName config.artifactStem) ↔
      ∃ artifacts, (generate grammar d config).1 = .ok artifacts) ∧
    (∀ before c after, d.classes = before ++ c :: after →
      (∀ condition ∈ .runtimePath :: (d.constants.map constantName ++ before.flatMap ofClass),
        condition.Holds grammar d config) →
      (¬ ∀ condition ∈ ofClass c, condition.Holds grammar d config) →
      (∃ condition ∈ ofClass c, ∃ e, condition.Fails grammar d config e ∧ (generate grammar d config).1 = .error e) ∧
        (generate grammar d config).2 = .started d.version :: (before ++ [c]).map Class.declaring) ∧
    ((∀ condition ∈ .runtimePath :: (ofDeclarations d ++ (ofMethodCode d ++ ofPropertyCode d)),
        condition.Holds grammar d config) →
      ((¬ ∃ c ∈ d.constants, c.errorClass = .hard ∧ c.displayName = "INTERNAL_ERROR") ∨
        ∃ c ∈ d.constants, c.errorClass.isException = true ∧ UInt16.size ≤ c.code.toNat) →
      (∃ condition ∈ ofExceptions d, ∃ e, condition.Fails grammar d config e ∧
          (generate grammar d config).1 = .error e) ∧
        d.trace (d.version.artifactName config.artifactStem) = (generate grammar d config).2 ++
          [.generated (d.version.artifactName config.artifactStem) d.classes.length
            d.constants.length]) := by
  have ends : (generate grammar d config).1.Ends _ := (generateSteps_follows grammar d config).ends []
  refine ⟨?_, ⟨fun whole => ?_, fun ended => ?_⟩, fun _ _ _ => generate_stops_in_class, fun met wrong => ?_⟩
  · rw [generate_reported, ← Description.events_stages]
    exact Stage.reported_prefix _
  · cases ended : (generate grammar d config).1 with
    | ok artifacts => exact ⟨artifacts, rfl⟩
    | error e => exact (generate_misses_last ended whole).elim
  · rw [generate_reported, Stage.reported_of_met (ends.exists_ok_iff.mp ended),
      Description.events_stages]
  · refine generate_stops_at_exceptions met fun all => ?_
    rcases wrong with none | ⟨c, listed, exception, large⟩
    · exact all _ List.mem_cons_self _ (.fallback none)
    · have looked : replyCode c ∈ ofExceptions d := List.mem_cons_of_mem _
        (List.mem_map_of_mem (List.mem_filter.mpr ⟨listed, exception⟩))
      exact all _ looked _ (.replyCode large)

namespace SeveralDefects

/-- The class with the defective method is the only one of which anything is reported. Without classes,
only the missing exception is at fault, and only the last event is missing. -/
theorem reports_stop :
    (generate .names description ⟨"rt", "framing"⟩).2 =
        [.started ⟨0, 9, 1⟩, .declaringClass "channel" 1] ∧
      (Description.new ⟨0, 9, 1⟩ 5672).trace "framing_0_9_1" =
        (generate .names (.new ⟨0, 9, 1⟩ 5672) ⟨"rt", "framing"⟩).2 ++ [.generated "framing_0_9_1" 0 0] := by
  have path (d : Description) : Condition.runtimePath.Holds .names d ⟨"rt", "framing"⟩ :=
    Condition.runtimePath_holds (Config.runtimePath_of_rt rfl)
  have misfit : ¬ ∀ condition ∈ ofClass ((Class.new 40 "channel").withMethod method),
      condition.Holds .names description ⟨"rt", "framing"⟩ := by
    rw [← first?_eq_none_iff]
    decide +kernel
  constructor
  · obtain ⟨-, -, inClass, -⟩ := generate_follows_trace .names description ⟨"rt", "framing"⟩
    exact (inClass [] _ [.new 50 "9"] rfl (List.forall_mem_singleton.mpr (path _)) misfit).2
  · obtain ⟨-, -, -, atExceptions⟩ :=
      generate_follows_trace .names (.new ⟨0, 9, 1⟩ 5672) ⟨"rt", "framing"⟩
    have missing : ¬ ∃ c ∈ (Description.new ⟨0, 9, 1⟩ 5672).constants,
        c.errorClass = .hard ∧ c.displayName = "INTERNAL_ERROR" := by
      rintro ⟨c, none, -⟩
      cases none
    exact (atExceptions (List.forall_mem_singleton.mpr (path _)) (.inl missing)).2

end SeveralDefects

end WireProtocol
