import WireProtocol.Proofs.Codec.Exceptions
import WireProtocol.Proofs.Config.RuntimePath
import WireProtocol.Proofs.Emit.LookupCalls
import WireProtocol.Proofs.Emit.Text
import WireProtocol.Proofs.Emit.Yields

/-!
# Exceptions of generated code

* `exceptions_tell_first`: calls of generated `lookup_exception`, `exception_code` and `exception_name` end
  as the constants say that were declared first.
* `classified_codes_settle`: classifying the code of a classified exception changes nothing, unless the
  constant that stands in for unknown codes does not own its code.

Which exception owns a code is decided by the order of the constants, and which one stands in for
unknown codes by its name and its class. Nothing keeps an exception from being declared with the code
of the one that stands in.
-/

namespace WireProtocol

open Constant Code

/-- Calls of `lookup_exception`, `exception_code` and `exception_name` in generated code end as
`ExceptionTable.classify`, `ExceptionTable.codeOf?` and `ExceptionTable.nameOf?` say of the constants of the
description: `table.TellsFirst d.constants` and `table.Agrees d.constants`. -/
theorem exceptions_tell_first {grammar : PathGrammar} {d : Description} {config : Config} {artifacts : Artifacts}
    (generated : (generate grammar d config).1 = .ok artifacts) :
    ∃ program path table, (Program.ofDescription d).Yields program ∧ config.runtimePath grammar = .ok path ∧
      artifacts = program.artifacts (d.version.artifactName config.artifactStem) d.version path ∧
      program.WrittenIn path artifacts ∧ ExceptionTable.ofConstants d.constants = .ok table ∧
      LookupCode.exceptions table <:+ program.definitions ∧ program.AnswersExceptions table ∧
      table.TellsFirst d.constants ∧ table.Agrees d.constants := by
  obtain ⟨program, path, table, made, found, same, collected, emitted⟩ :=
    generate_exceptions generated
  have tells := ExceptionTable.tellsFirst collected
  exact ⟨program, path, table, made, found, same, same ▸ program.writtenIn _ _ _, collected, emitted,
    Program.answersExceptions emitted.subset, tells, tells.agrees⟩

namespace SharedCodes

def config : Config := ⟨"rt", "framing"⟩

/-- A description of constants alone. -/
def description (constants : List Constant) : Description :=
  { Description.new ⟨0, 9, 1⟩ 5672 with constants }

/-- Constants that share codes or names in several ways. -/
def constants : List Constant :=
  [⟨"plain-first", 701, .none⟩, ⟨"late exception", 701, .soft⟩, ⟨"first owner", 700, .soft⟩,
    ⟨"second-owner", 700, .hard⟩, ⟨"FIRST_OWNER", 702, .hard⟩, ⟨"Internal Error", 541, .hard⟩,
    ⟨"frame-max", 131072, .none⟩]

/-- An exception with the code of the one that stands in for unknown codes, and in front of it. -/
def displaced : List Constant :=
  [⟨"resource-error", 541, .soft⟩, ⟨"internal-error", 541, .hard⟩]

theorem exists_generated (cs : List Constant) (h : cs = constants ∨ cs = displaced) :
    ∃ artifacts, (generate .names (description cs) config).1 = .ok artifacts := by
  have complete : (generate .names (description cs) config).1.isOk = true := by
    unfold generate generateSteps
    rw [Config.runtimePath_of_rt rfl]
    rcases h with rfl | rfl <;> decide +kernel
  exact Except.exists_eq_ok_of_isOk complete

/-- The last of the exceptions stands in for unknown codes. -/
theorem fallback_of_constants : FirstWith IsFallback constants ⟨"Internal Error", 541, .hard⟩ :=
  FirstWith.iff_find?.mpr (by decide +kernel)

/-- The first of two constants answers for a code, and for a name; an unknown code leaves a warning;
and a plain constant lends its name to the code of an exception behind it. -/
theorem first_constants_answer : ∃ program path table,
    (generate .names (description constants) config).1 =
      .ok (Program.artifacts program "framing_0_9_1" ⟨0, 9, 1⟩ path) ∧
    ExceptionTable.ofConstants constants = .ok table ∧
    table.classify 700 = (⟨false, 700, "FIRST_OWNER"⟩, none) ∧
    table.classify 9 = (⟨true, 541, "INTERNAL_ERROR"⟩, some ⟨9, "INTERNAL_ERROR"⟩) ∧
    (table.codeOf? "FIRST_OWNER").map table.classify =
      some (⟨false, 700, "FIRST_OWNER"⟩, none) ∧
    table.codeOf? "PLAIN_FIRST" = none ∧ table.nameOf? 701 = some "PLAIN_FIRST" ∧
    (∀ calls, CallEnds program.definitions calls "lookup_exception" [.number 9]
      (.exception (⟨true, 541, "INTERNAL_ERROR"⟩, some ⟨9, "INTERNAL_ERROR"⟩))) ∧
    (∀ calls, CallEnds program.definitions calls "exception_code" [.text "PLAIN_FIRST"] (.option none)) ∧
    ∀ calls, CallEnds program.definitions calls "exception_name" [.number 701]
      (.option (some (.text "PLAIN_FIRST"))) := by
  obtain ⟨artifacts, generated⟩ := exists_generated constants (.inl rfl)
  obtain ⟨program, path, table, -, -, same, -, collected, -, answers, tells, agrees⟩ :=
    exceptions_tell_first generated
  have named' : (description constants).version.artifactName config.artifactStem = "framing_0_9_1" := by
    decide +kernel
  have owner : FirstWith (IsExceptionOf 700) constants ⟨"first owner", 700, .soft⟩ :=
    FirstWith.iff_find?.mpr (by decide +kernel)
  have named : FirstWith (IsExceptionNamed "FIRST_OWNER") constants ⟨"first owner", 700, .soft⟩ :=
    FirstWith.iff_find?.mpr (by decide +kernel)
  have plain : FirstWith (fun c => c.code = UInt16.toUInt32 701) constants
      ⟨"plain-first", 701, .none⟩ :=
    FirstWith.iff_find?.mpr (by decide +kernel)
  have shown : displayName ⟨"first owner", 700, .soft⟩ = "FIRST_OWNER" := rfl
  have known := tells.known 700 _ owner
  have through := agrees.throughName 700 _ owner
  rw [shown] at known through
  obtain ⟨standIn, own, first, same', unknown⟩ := tells.unknown 9 (by decide +kernel)
  cases fallback_of_constants.unique first
  have : own = 541 := UInt16.toUInt32_inj.mp same'.symm
  subst this
  have nameless := tells.nameless "PLAIN_FIRST" (by decide +kernel)
  have shown' := tells.shown 701 _ plain
  refine ⟨program, path, table, by rw [generated, same, named']; rfl, collected, known, unknown,
    through named, nameless, shown', fun calls => ?_, fun calls => ?_, fun calls => ?_⟩
  · exact unknown ▸ answers.classified calls 9
  · have answer := answers.codes calls "PLAIN_FIRST"
    rwa [nameless] at answer
  · have answer := answers.names calls 701
    rwa [shown'] at answer

end SharedCodes

/-- Classifying the code that a code has been classified as leaves no warning and leads to the same
code. It leads to the same exception unless the first code was unknown and the constant that stands in
for it is not the first exception with its own code. -/
theorem classified_codes_settle {grammar : PathGrammar} {d : Description} {config : Config} {artifacts : Artifacts}
    (generated : (generate grammar d config).1 = .ok artifacts) :
    ∃ table standIn own owner, ExceptionTable.ofConstants d.constants = .ok table ∧
      FirstWith IsFallback d.constants standIn ∧ standIn.code = UInt16.toUInt32 own ∧
      FirstWith (IsExceptionOf own) d.constants owner ∧
      ∀ code, (table.classify (table.classify code).1.code).2 = none ∧
        (table.classify (table.classify code).1.code).1.code = (table.classify code).1.code ∧
        ((table.classify (table.classify code).1.code).1 = (table.classify code).1 ↔
          (∃ c ∈ d.constants, c.IsExceptionOf code) ∨ owner.IsFallback) := by
  obtain ⟨-, -, table, -, -, -, collected, -⟩ := generate_exceptions generated
  obtain ⟨standIn, own, owner, fallback, same, owns⟩ :=
    ExceptionTable.TellsFirst.exists_owner collected
  exact ⟨table, standIn, own, owner, collected, fallback, same, owns,
    (ExceptionTable.tellsFirst collected).classify_again fallback same owns⟩

namespace SharedCodes

/-- Where the constant that stands in owns its code, every code settles at once. -/
theorem codes_settle : ∃ table, ExceptionTable.ofConstants constants = .ok table ∧
    ∀ code, (table.classify (table.classify code).1.code).1 = (table.classify code).1 := by
  obtain ⟨artifacts, generated⟩ := exists_generated constants (.inl rfl)
  obtain ⟨table, standIn, own, owner, collected, first, same, owns, settles⟩ :=
    classified_codes_settle generated
  cases fallback_of_constants.unique first
  have : own = 541 := UInt16.toUInt32_inj.mp same.symm
  subst this
  have owner' : FirstWith (IsExceptionOf 541) constants ⟨"Internal Error", 541, .hard⟩ :=
    FirstWith.iff_find?.mpr (by decide +kernel)
  cases owner'.unique owns
  exact ⟨table, collected, fun code => (settles code).2.2.mpr (.inr fallback_of_constants.holds)⟩

/-- An unknown code is taken for a hard error, the code of which is classified as a soft one. -/
theorem code_of_fallback_differs :
    ∃ artifacts table, (generate .names (description displaced) config).1 = .ok artifacts ∧
      ExceptionTable.ofConstants displaced = .ok table ∧
      (table.classify 9).1 = ⟨true, 541, "INTERNAL_ERROR"⟩ ∧
      (table.classify (table.classify 9).1.code).1 = ⟨false, 541, "RESOURCE_ERROR"⟩ := by
  obtain ⟨artifacts, generated⟩ := exists_generated displaced (.inr rfl)
  obtain ⟨-, -, table, -, -, -, collected, -⟩ := generate_exceptions generated
  have same : ExceptionTable.ofConstants displaced = .ok {
      byCode := [⟨false, 541, "RESOURCE_ERROR"⟩]
      byName := [⟨false, 541, "RESOURCE_ERROR"⟩, ⟨true, 541, "INTERNAL_ERROR"⟩]
      names := [(541, "RESOURCE_ERROR")]
      fallback := ⟨true, 541, "INTERNAL_ERROR"⟩ } := by
    with_unfolding_all rfl
  cases collected.symm.trans same
  exact ⟨artifacts, _, generated, collected, rfl, rfl⟩

end SharedCodes

end WireProtocol
