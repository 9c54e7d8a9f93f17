import WireProtocol.Codec.Lookup
import WireProtocol.Proofs.Emit.Interpreter
import WireProtocol.Proofs.FirstMatch

/-!
# Calls of the functions that look things up

What calls of the generated functions for classes and for exceptions end as.

* `LookupCode.call_lookup_class_name`, `LookupCode.call_class_id`: classes are looked up as the description
  says.
* `LookupCode.outcome?_infoTokens`, `LookupCode.outcome?_standInTokens`: what the cases of `lookup_exception`
  end as.
* `Program.AnswersExceptions`: calls of the functions for exceptions end as a table says.
* `Program.answersExceptions`: so they do in every program with the code for the table.
-/

namespace WireProtocol

open Tokens Code

/-! ## Outcomes -/

namespace Code

variable {calls : Calls} {owner : String} {locals : Locals}

theorem outcome?_ok {value : Tokens} {atom : Atom} (denotes : Denotes owner value atom) :
    outcome? calls owner locals (words "Ok" ++ parens value) = some (.result (.ok (.atom atom))) := by
  have read := congrArg (Option.map fun atom => Outcome.result (.ok (.atom atom))) denotes.read
  rw [words_eq]
  exact read

theorem outcome?_unknownClassId (id : UInt16) :
    outcome? calls owner (("class_id", .number id) :: locals)
        (words "Err" ++ parens (runtime "FrameError :: UnknownClassId" ++ parens (words "class_id"))) =
      some (.result (.error (.unknownClassId id))) := by
  simp only [runtime, words_eq]
  rfl

end Code

/-! ## Classes -/

namespace LookupCode

variable (d : Description) (calls : Calls) {owner : String} {locals : Locals}

theorem chooses_name (name : String) :
    Chooses (words "name : & str") (words "name") [.text name] [("name", .text name)] (.text name) := by
  simp only [words_eq]
  exact ⟨rfl, rfl, rfl, fun _ => rfl⟩

theorem chooses_class_id (id : UInt16) :
    Chooses (words "class_id : u16") (words "class_id") [.number id] [("class_id", .number id)]
      (.number id) := by
  simp only [words_eq]
  exact ⟨rfl, rfl, rfl, fun _ => rfl⟩

theorem outcome?_unknownClassName (name : String) :
    outcome? calls owner [("name", .text name)] (words "Err" ++ parens
        (runtime "FrameError :: UnknownClassName" ++ parens (words "name . to_string" ++ parens []))) =
      some (.result (.error (.unknownClassName name))) := by
  simp only [runtime, words_eq]
  rfl

theorem call_lookup_class_name (id : UInt16) :
    CallEnds (classes d) calls "lookup_class_name" [.number id]
      (.result ((d.classOfId id).map fun c => .text c.name)) := by
  refine ⟨_, List.mem_cons_self, ?_⟩
  rw [Item.call?_table (chooses_class_id id) (fun c _ => denotes_number c.id) (fun c _ => whole_holding rfl _)
    (whole_holding rfl _), Description.classOfId]
  simp only [Atom.number_beq]
  cases d.classes.find? (·.id == id) with
  | none => exact outcome?_unknownClassId id
  | some c => exact outcome?_ok (denotes_text c.name)

theorem call_class_id (name : String) :
    CallEnds (classes d) calls "class_id" [.text name]
      (.result ((d.classOfName name).map fun c => .number c.id)) := by
  refine ⟨_, .tail _ (.head _), ?_⟩
  rw [Item.call?_table (chooses_name name) (fun c _ => denotes_text c.name) (fun c _ => whole_holding rfl _)
    (whole_holding rfl _), Description.classOfName]
  simp only [Atom.text_beq]
  cases d.classes.find? (·.name == name) with
  | none => exact outcome?_unknownClassName calls name
  | some c => exact outcome?_ok (denotes_number c.id)

/-! ## Exceptions -/

variable {calls}

/-- The last case of `lookup_exception`: what stands in for a code is taken for it. -/
def standInTokens (info : ExceptionInfo) : Tokens :=
  runtime "unknown_exception" ++ parens (words "code ," ++ infoTokens info ++ words ",")

theorem info?_arguments (info : ExceptionInfo) :
    info? (commaSeparated
      [Literal.bool info.hard, Literal.number info.code.toNat "u16", Literal.text info.name]) = some info := by
  change (do
    return ExceptionInfo.mk (← Literal.bool? _) (← Literal.number? _) (← Literal.text? _)) = _
  rw [Literal.bool?_bool, Literal.number?_number, Literal.text?_text]
  rfl

theorem outcome?_infoTokens (info : ExceptionInfo) :
    outcome? calls owner locals (infoTokens info) = some (.exception (info, none)) := by
  have read := congrArg (Option.map fun info => Outcome.exception (info, none)) (info?_arguments info)
  simp only [infoTokens, runtime, words_eq]
  exact read

theorem outcome?_standInTokens (info : ExceptionInfo) (code : UInt16) :
    outcome? calls owner [("code", .number code)] (standInTokens info) =
      some (.exception ((info.standIn code).1, some (info.standIn code).2)) := by
  have read := congrArg (Option.map fun info : ExceptionInfo =>
    Outcome.exception ((info.standIn code).1, some (info.standIn code).2)) (info?_arguments info)
  rw [Option.map_eq_bind] at read
  simp only [standInTokens, infoTokens, runtime, words_eq]
  exact read

theorem outcome?_someTokens {value : Tokens} {atom : Atom} (denotes : Denotes owner value atom) :
    outcome? calls owner locals (someTokens value) = some (.option (some (.atom atom))) := by
  have read := congrArg (Option.map fun atom => Outcome.option (some (.atom atom))) denotes.read
  rw [someTokens, words_eq]
  exact read

theorem outcome?_none : outcome? calls owner locals (words "None") = some (.option none) := by
  rw [words_eq]
  rfl

theorem whole_infoTokens (info : ExceptionInfo) : Whole (infoTokens info) := by
  simp only [infoTokens, runtime, words_eq]
  exact whole_iff.mpr rfl

theorem whole_standInTokens (info : ExceptionInfo) : Whole (standInTokens info) := by
  simp only [standInTokens, runtime, words_eq]
  exact whole_iff.mpr rfl

theorem whole_someTokens (value : Tokens) : Whole (someTokens value) :=
  whole_holding rfl value

theorem whole_none : Whole (words "None") := by
  rw [words_eq]
  exact whole_iff.mpr rfl

theorem chooses_code (code : UInt16) :
    Chooses (words "code : u16") (words "code") [.number code] [("code", .number code)] (.number code) := by
  simp only [words_eq]
  exact ⟨rfl, rfl, rfl, fun _ => rfl⟩

variable (table : ExceptionTable) (calls : Calls)

theorem call_lookup_exception (code : UInt16) :
    CallEnds (exceptions table) calls "lookup_exception" [.number code] (.exception (table.classify code)) := by
  refine ⟨_, List.mem_cons_self, ?_⟩
  refine (Item.call?_table (chooses_code code) (fun info _ => denotes_number info.code)
    (fun info _ => whole_infoTokens info) (whole_standInTokens table.fallback) calls).trans ?_
  rw [ExceptionTable.classify]
  simp only [Atom.number_beq]
  cases table.byCode.find? (·.code == code) with
  | none => exact outcome?_standInTokens table.fallback code
  | some info => exact outcome?_infoTokens info

theorem call_exception_code (name : String) :
    CallEnds (exceptions table) calls "exception_code" [.text name]
      (.option ((table.codeOf? name).map .number)) := by
  refine ⟨_, .tail _ (.head _), ?_⟩
  rw [Item.call?_table (chooses_name name) (fun info _ => denotes_text info.name)
    (fun info _ => whole_someTokens _) whole_none, ExceptionTable.codeOf?]
  simp only [Atom.text_beq]
  cases table.byName.find? (·.name == name) with
  | none => exact outcome?_none
  | some info => exact outcome?_someTokens (denotes_number info.code)

theorem call_exception_name (code : UInt16) :
    CallEnds (exceptions table) calls "exception_name" [.number code]
      (.option ((table.nameOf? code).map .text)) := by
  refine ⟨_, .tail _ (.tail _ (.head _)), ?_⟩
  rw [Item.call?_table (chooses_code code) (fun entry _ => denotes_number entry.1)
    (fun entry _ => whole_someTokens _) whole_none, ExceptionTable.nameOf?, lookup_eq_map_find?]
  simp only [Atom.number_beq]
  cases table.names.find? fun entry => entry.1 == code with
  | none => exact outcome?_none
  | some entry => exact outcome?_someTokens (denotes_text entry.2)

end LookupCode

/-! ## Programs -/

/-- Calls of `lookup_exception`, `exception_code` and `exception_name` end as the table says. -/
structure Program.AnswersExceptions (program : Program) (table : ExceptionTable) : Prop where
  classified : ∀ calls code, CallEnds program.definitions calls "lookup_exception" [.number code]
    (.exception (table.classify code))
  codes : ∀ calls name, CallEnds program.definitions calls "exception_code" [.text name]
    (.option ((table.codeOf? name).map .number))
  names : ∀ calls code, CallEnds program.definitions calls "exception_name" [.number code]
    (.option ((table.nameOf? code).map .text))

theorem Program.answersExceptions {program : Program} {table : ExceptionTable}
    (emitted : LookupCode.exceptions table ⊆ program.definitions) : program.AnswersExceptions table where
  classified := fun calls code => (LookupCode.call_lookup_exception table calls code).mono emitted
  codes := fun calls name => (LookupCode.call_exception_code table calls name).mono emitted
  names := fun calls code => (LookupCode.call_exception_name table calls code).mono emitted

end WireProtocol
