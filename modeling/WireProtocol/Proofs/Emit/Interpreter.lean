import WireProtocol.Codec.Exception
import WireProtocol.Codec.Value
import WireProtocol.Emit.Generate
import WireProtocol.Payload.Error
import WireProtocol.Proofs.Emit.Literals
import WireProtocol.Proofs.Emit.Scan

/-!
# Running generated code

What calls of generated functions end as that choose between cases. All of it is read off the tokens.

* `Code.Value`, `Code.Outcome`: what such functions work on, and what they end as.
* `Code.Pattern`, `Code.select?`: the patterns of cases, and the first case that fits a value.
* `Code.outcome?`: what the code of a case ends as. Calls of other functions end as the caller of the
  interpreter says.
* `Item.call?`: what a call of a function ends as.
* `Code.CallEnds`, `Code.CallReturns`: what a call of a function ends as that is among items.
* `Code.select?_table`, `Item.call?_cases`: a function over a table answers with the first of its entries
  that fits.
-/

namespace WireProtocol

open Tokens

namespace Code

/-! ## Values -/

/-- What is written down in code as it is: a literal, two numbers, or a variant that holds nothing. -/
inductive Atom where
  | number (n : UInt16)
  | numbers (first second : UInt16)
  | text (value : String)
  | variant (type : String) (id : Ident)
deriving DecidableEq, Repr

/-- What code works on. -/
inductive Value where
  | atom (atom : Atom)
  | holding (type : String) (id : Ident) (held : Value)
  | octets (bytes : Bytes)
  | record (fields : List (Option WireValue))

namespace Value

/-- A number as a value. -/
abbrev number (n : UInt16) : Value :=
  atom (.number n)

/-- Two numbers as a value. -/
abbrev numbers (first second : UInt16) : Value :=
  atom (.numbers first second)

/-- A text as a value. -/
abbrev text (value : String) : Value :=
  atom (.text value)

/-- A variant that holds nothing as a value. -/
abbrev variant (type : String) (id : Ident) : Value :=
  atom (.variant type id)

end Value

@[simp] theorem Atom.number_beq (m n : UInt16) : (number m == number n) = (m == n) := by
  rw [Bool.eq_iff_iff, beq_iff_eq, beq_iff_eq, number.injEq]

@[simp] theorem Atom.numbers_beq (m m' n n' : UInt16) :
    (numbers m m' == numbers n n') = (m == n && m' == n') := by
  rw [Bool.eq_iff_iff, Bool.and_eq_true, beq_iff_eq, beq_iff_eq, beq_iff_eq, numbers.injEq]

@[simp] theorem Atom.text_beq (value other : String) : (text value == text other) = (value == other) := by
  rw [Bool.eq_iff_iff, beq_iff_eq, beq_iff_eq, text.injEq]

/-- What a call ends as. -/
inductive Outcome where
  | value (value : Value)
  | option (value : Option Value)
  | result (result : Except FrameError Value)
  | exception (classified : ExceptionInfo × Option UnknownCode)

/-- A result the value of which is changed, if there is one. -/
def Outcome.map? (change : Value → Value) : Outcome → Option Outcome
  | result r => some (result (r.map change))
  | value _ | option _ | exception _ => none

/-- Locals with what they hold. -/
abbrev Locals := List (String × Value)

/-- What calls of functions with one argument end as. -/
abbrev Calls := Ident → Value → Option Outcome

namespace Locals

/-- The number in a local. -/
def number? (locals : Locals) (slot : String) : Option UInt16 :=
  match locals.lookup slot with
  | some (.atom (.number n)) => some n
  | _ => none

/-- The text in a local. -/
def text? (locals : Locals) (slot : String) : Option String :=
  match locals.lookup slot with
  | some (.atom (.text value)) => some value
  | _ => none

end Locals

/-! ## Patterns -/

/-- The pattern of a case: it fits anything, a value that is written down, or a variant that holds a
value, for which there may be a local. -/
inductive Pattern where
  | any
  | atom (atom : Atom)
  | holding (type : String) (id : Ident) (slot : Option String)
deriving DecidableEq, Repr

/-- The locals of a pattern that fits the value. -/
def Pattern.match? : Pattern → Value → Option Locals
  | any, _ => some []
  | atom own, .atom other => if own = other then some [] else none
  | holding type id slot, .holding type' id' held =>
    if (type, id) = (type', id') then some (slot.toList.map (·, held)) else none
  | _, _ => none

/-- The type of that name, where `Self` is short for another one. -/
def typeName (owner type : String) : String :=
  if type = "Self" then owner else type

/-- The literal that a word is. -/
def literal? (word : String) : Option Atom :=
  ((Literal.text? word).map .text).or ((Literal.number? word).map .number)

/-- The value that is written down. -/
def atom? (owner : String) : Tokens → Option Atom
  | [.word word] => literal? word
  | [.group .parenthesis [.word first, .word ",", .word second]] => do
    return .numbers (← Literal.number? first) (← Literal.number? second)
  | [.word type, .word "::", .ident id] => some (.variant (typeName owner type) id)
  | _ => none

/-- The pattern that is written down. -/
def pattern? (owner : String) : Tokens → Option Pattern
  | [.word word] => if word = "_" then some .any else (literal? word).map .atom
  | [.word type, .word "::", .ident id, .group .parenthesis [.word "_"]] =>
    some (.holding (typeName owner type) id none)
  | [.word type, .word "::", .ident id, .group .parenthesis [.word "ref", .word slot]] =>
    some (.holding (typeName owner type) id slot)
  | tokens => (atom? owner tokens).map .atom

/-- The code of the first case that fits the value, with the locals of its pattern. What cannot be read
as a pattern keeps the cases behind it from being reached. -/
def select? (owner : String) (value : Value) : List (Tokens × Tokens) → Option (Locals × Tokens)
  | [] => none
  | (pattern, answer) :: arms => do
    let own ← pattern? owner pattern
    ((own.match? value).map (·, answer)).or (select? owner value arms)

/-! ## Cases -/

/-- The error that is written down, with what is in the locals that it mentions. -/
def error? (locals : Locals) : Tokens → Option FrameError
  | [.runtime, .word "::", .word "FrameError", .word "::", .word "UnknownClassId",
      .group .parenthesis [.word slot]] =>
    (locals.number? slot).map .unknownClassId
  | [.runtime, .word "::", .word "FrameError", .word "::", .word "UnknownClassName",
      .group .parenthesis [.word slot, .word ".", .word "to_string", .group .parenthesis []]] =>
    (locals.text? slot).map .unknownClassName
  | [.runtime, .word "::", .word "FrameError", .word "::", .word "UnknownMethodId",
      .group .brace [.word "class_id", .word ",", .word "method_id"]] => do
    return .unknownMethodId (← locals.number? "class_id") (← locals.number? "method_id")
  | _ => none

/-- What the arguments say about an exception: its class, its code and its name. -/
def info? : Tokens → Option ExceptionInfo
  | [.word hard, .word ",", .word code, .word ",", .word name] => do
    return ⟨← Literal.bool? hard, ← Literal.number? code, ← Literal.text? name⟩
  | _ => none

/-- What the code of a case ends as. -/
def outcome? (calls : Calls) (owner : String) (locals : Locals) : Tokens → Option Outcome
  | [.word word] =>
    if word = "None" then some (.option none) else (literal? word).map fun atom => .value (.atom atom)
  | [.word "Some", .group .parenthesis value] =>
    (atom? owner value).map fun atom => .option (some (.atom atom))
  | [.word "Ok", .group .parenthesis value] =>
    (atom? owner value).map fun atom => .result (.ok (.atom atom))
  | [.word "Err", .group .parenthesis error] =>
    (error? locals error).map fun e => .result (.error e)
  | [.runtime, .word "::", .word "ExceptionInfo", .word "::", .word "new", .group .parenthesis arguments] =>
    (info? arguments).map fun info => .exception (info, none)
  | [.runtime, .word "::", .word "unknown_exception", .group .parenthesis
      [.word slot, .word ",", .runtime, .word "::", .word "ExceptionInfo", .word "::", .word "new",
        .group .parenthesis arguments, .word ","]] => do
    let taken := (← info? arguments).standIn (← locals.number? slot)
    return .exception (taken.1, some taken.2)
  | [.ident function, .group .parenthesis [.word slot]] => do
    calls function (← locals.lookup slot)
  | [.ident function, .group .parenthesis [.word slot], .word ".", .word "map",
      .group .parenthesis [.word type, .word "::", .ident id]] => do
    (← calls function (← locals.lookup slot)).map? (.holding (typeName owner type) id)
  | value => (atom? owner value).map fun atom => .value (.atom atom)

/-! ## Functions -/

/-- The names of the parameters. The last word in front of a type is the name, and so is that of a
parameter without a type. -/
def parameterNames (parameters : Tokens) : List String :=
  (operands "," parameters).filterMap fun parameter =>
    (parameter.takeWhile fun token => !token.isWord ":").getLast?.bind (·.spelling?)

/-- What is chosen by. -/
def subject? (locals : Locals) : Tokens → Option Value
  | [.word slot] => locals.lookup slot
  | [.word "*", .word slot] => locals.lookup slot
  | [.group .parenthesis [.word first, .word ",", .word second]] => do
    return .numbers (← locals.number? first) (← locals.number? second)
  | _ => none

/-- The pattern and the code of a case. -/
def arm? (arm : Tokens) : Option (Tokens × Tokens) :=
  match operands "=>" arm with
  | [pattern, answer] => some (pattern, answer)
  | _ => none

/-- The cases in a block, each with a comma behind it. -/
def arms? (block : Tokens) : Option (List (Tokens × Tokens)) :=
  (operands "," block).dropLast.mapM arm?

/-- What a choice ends as. -/
def choose? (calls : Calls) (owner : String) (locals : Locals) : Tokens → Option Outcome
  | .word "match" :: choice => do
    let parts ← untilBlock? choice
    let chosen ← select? owner (← subject? locals parts.1) (← arms? parts.2)
    outcome? calls owner (chosen.1 ++ locals) chosen.2
  | _ => none

end Code

open Code

/-- What a call of the function with these arguments ends as, if the item is that function. -/
def Item.call? (calls : Calls) (owner function : String) (arguments : List Value) : Item → Option Outcome
  | .function _ _ id parameters _ body =>
    let names := parameterNames parameters
    if id = .plain function ∧ names.length = arguments.length then
      choose? calls owner (names.zip arguments) body
    else
      none
  | .constant .. | .record .. | .choice .. | .implementation .. => none

namespace Code

/-! ## What is written down -/

section

variable {owner : String}

theorem literal?_text (value : String) :
    literal? (String.ofList ('"' :: Literal.escapeText value.toList ++ ['"'])) = some (.text value) := by
  rw [literal?, Literal.text?_text]
  rfl

theorem literal?_number (n : UInt16) : literal? (toString n.toNat ++ "u16") = some (.number n) := by
  rw [literal?, Literal.text?_number, Literal.number?_number]
  rfl

/-- The code is one expression or one pattern: there is no sign in it that ends either. -/
def Whole (tokens : Tokens) : Prop :=
  ∀ token ∈ tokens, token.isWord "," = false ∧ token.isWord "=>" = false

theorem whole_iff {tokens : Tokens} :
    Whole tokens ↔ tokens.all (fun token => !token.isWord "," && !token.isWord "=>") = true := by
  simp [Whole]

/-- Something is written down as that, and is read back. -/
structure Denotes (owner : String) (tokens : Tokens) (atom : Atom) : Prop where
  read : atom? owner tokens = some atom
  pattern : pattern? owner tokens = some (.atom atom)
  whole : Whole tokens

theorem pattern?_literal {word : String} {atom : Atom} (read : literal? word = some atom) :
    pattern? owner [.word word] = some (.atom atom) := by
  have other : word ≠ "_" := by
    rintro rfl
    cases read
  rw [pattern?, if_neg other, read]
  rfl

theorem whole_literal {word : String} {atom : Atom} (read : literal? word = some atom) :
    Whole [.word word] := by
  have other (sign : String) (none : literal? sign = none) : (word == sign) = false := by
    rw [beq_eq_false_iff_ne]
    rintro rfl
    cases none.symm.trans read
  intro token member
  cases List.mem_singleton.mp member
  exact ⟨other "," rfl, other "=>" rfl⟩

theorem outcome?_literal {word : String} {atom : Atom} (read : literal? word = some atom) {calls : Calls}
    {locals : Locals} : outcome? calls owner locals [.word word] = some (.value (.atom atom)) := by
  have other : word ≠ "None" := by
    rintro rfl
    cases read
  rw [outcome?, if_neg other, read]
  rfl

theorem denotes_number (n : UInt16) : Denotes owner (Literal.number n.toNat "u16") (.number n) where
  read := literal?_number n
  pattern := pattern?_literal (literal?_number n)
  whole := whole_literal (literal?_number n)

theorem denotes_text (value : String) : Denotes owner (Literal.text value) (.text value) where
  read := literal?_text value
  pattern := pattern?_literal (literal?_text value)
  whole := whole_literal (literal?_text value)

theorem denotes_numbers (first second : UInt16) :
    Denotes owner (parens (Literal.number first.toNat "u16" ++ words "," ++ Literal.number second.toNat "u16"))
      (.numbers first second) := by
  have read : (do
      return Atom.numbers (← Literal.number? (toString first.toNat ++ "u16"))
        (← Literal.number? (toString second.toNat ++ "u16"))) = some (.numbers first second) := by
    rw [Literal.number?_number, Literal.number?_number]
    rfl
  rw [words_singleton (by decide)]
  refine ⟨read, congrArg (Option.map Pattern.atom) read, fun token member => ?_⟩
  cases List.mem_singleton.mp member
  exact ⟨rfl, rfl⟩

section

variable {type : String} (letters : type.toList.all Char.isAlpha = true)

include letters

theorem beq_of_letters {sign : String} (marked : sign.toList.all Char.isAlpha = false) :
    (type == sign) = false := by
  rw [beq_eq_false_iff_ne]
  rintro rfl
  cases letters.symm.trans marked

theorem blank_not_mem : ' ' ∉ type.toList := by
  intro inside
  cases List.all_eq_true.mp letters _ inside

theorem words_member : words (type ++ " ::") = [.word type, .word "::"] := by
  have spelled : (type ++ " ::").toList = type.toList ++ ' ' :: "::".toList := by
    rw [String.toList_append]
    rfl
  have whole : ∀ c ∈ type.toList, (c == ' ') = false := by
    intro c inside
    rw [beq_eq_false_iff_ne]
    rintro rfl
    exact blank_not_mem letters inside
  rw [words_eq, spelled, List.splitOn, List.splitOnP_append_cons_of_forall_mem whole _ (by rfl), List.map_cons,
    String.ofList_toList]
  rfl

theorem whole_member (id : Ident) : Whole (member type id) := by
  intro token inside
  rw [member, words_member letters] at inside
  simp only [name, List.cons_append, List.nil_append, List.mem_cons, List.not_mem_nil, or_false] at inside
  rcases inside with rfl | rfl | rfl
  · exact ⟨beq_of_letters letters rfl, beq_of_letters letters rfl⟩
  · exact ⟨rfl, rfl⟩
  · exact ⟨rfl, rfl⟩

/-- A variant with what it holds. -/
theorem whole_holding (held : Tokens) : Whole (words type ++ parens held) := by
  rw [words_singleton (blank_not_mem letters)]
  intro token inside
  rcases List.mem_cons.mp inside with rfl | inside
  · exact ⟨beq_of_letters letters rfl, beq_of_letters letters rfl⟩
  · cases List.mem_singleton.mp inside
    exact ⟨rfl, rfl⟩

end

theorem denotes_variant {type : String} (letters : type.toList.all Char.isAlpha = true) (id : Ident) :
    Denotes owner (member type id) (.variant (typeName owner type) id) := by
  refine ⟨?_, ?_, whole_member letters id⟩
  all_goals
    rw [member, words_member letters]
    rfl

end

/-! ## Cases one by one -/

theorem arms?_cons {pattern answer : Tokens} (here : Whole pattern) (there : Whole answer) (rest : Tokens) :
    arms? (pattern ++ words "=>" ++ answer ++ words "," ++ rest) =
      (arms? rest).map ((pattern, answer) :: ·) := by
  have inside : ∀ token ∈ pattern ++ .word "=>" :: answer, token.isWord "," = false := by
    intro token member
    rw [List.mem_append, List.mem_cons] at member
    rcases member with member | rfl | member
    · exact (here token member).1
    · rfl
    · exact (there token member).1
  have parts : operands "=>" (pattern ++ .word "=>" :: answer) = [pattern, answer] := by
    rw [operands_cons fun token member => (here token member).2,
      operands_singleton fun token member => (there token member).2]
  have some : operands "," rest ≠ [] := List.splitOnP_ne_nil _ _
  have spelled : pattern ++ words "=>" ++ answer ++ words "," ++ rest =
      (pattern ++ .word "=>" :: answer) ++ .word "," :: rest := by
    rw [words_singleton (by decide), words_singleton (by decide)]
    simp
  rw [spelled, arms?, operands_cons inside, List.dropLast_cons_of_ne_nil some, List.mapM_cons, arm?, parts]
  exact Option.map_eq_bind.symm

theorem arms?_cases {arms : List (Tokens × Tokens)} (whole : ∀ arm ∈ arms, Whole arm.1 ∧ Whole arm.2) :
    arms? (arms.flatMap fun arm => arm.1 ++ words "=>" ++ arm.2 ++ words ",") = some arms := by
  induction arms with
  | nil => rfl
  | cons arm arms ih =>
    rw [List.forall_mem_cons] at whole
    rw [List.flatMap_cons, arms?_cons whole.1.1 whole.1.2, ih whole.2]
    rfl

/-- What there is behind a table is looked at where none of its entries fits. The first one that does is
chosen. -/
theorem select?_table {α : Type} {entries : List α} {key answer : α → Tokens} {fits : α → Bool}
    {owner : String} {value : Value} {locals : Locals}
    (each : ∀ e ∈ entries, ∃ pattern, pattern? owner (key e) = some pattern ∧
      pattern.match? value = if fits e then some locals else none) (rest : List (Tokens × Tokens)) :
    select? owner value (entries.map (fun e => (key e, answer e)) ++ rest) =
      ((entries.find? fits).map fun e => (locals, answer e)).or (select? owner value rest) := by
  induction entries with
  | nil => rfl
  | cons e entries ih =>
    rw [List.forall_mem_cons] at each
    obtain ⟨⟨pattern, read, fit⟩, others⟩ := each
    rw [List.map_cons, List.cons_append, select?, read, List.find?_cons]
    change ((pattern.match? value).map (·, answer e)).or _ = _
    rw [fit, ih others]
    cases fits e <;> rfl

/-- A table by what is written down answers with the first of its entries that has the value as its key. -/
theorem select?_atoms {α : Type} {entries : List α} {key answer : α → Tokens} {own : α → Atom}
    {owner : String} (each : ∀ e ∈ entries, Denotes owner (key e) (own e)) (asked : Atom)
    (rest : List (Tokens × Tokens)) :
    select? owner (.atom asked) (entries.map (fun e => (key e, answer e)) ++ rest) =
      ((entries.find? fun e => own e == asked).map fun e => ([], answer e)).or
        (select? owner (.atom asked) rest) :=
  select?_table (fun e member => ⟨.atom (own e), (each e member).pattern, by simp [Pattern.match?]⟩) rest

/-- What fits nothing else is left to the last case. -/
theorem select?_any {owner : String} {value : Value} {answer : Tokens} :
    select? owner value [(words "_", answer)] = some ([], answer) := by
  rw [words_eq]
  rfl

end Code

/-! ## Calls -/

/-- A call with these arguments chooses by that value, with these locals for the arguments. -/
structure Code.Chooses (parameters subject : Tokens) (arguments : List Value) (locals : Locals)
    (value : Value) : Prop where
  length_eq : (parameterNames parameters).length = arguments.length
  locals_eq : (parameterNames parameters).zip arguments = locals
  chosen : subject? locals subject = some value
  ended : ∀ block, untilBlock? (subject ++ braces block) = some (subject, block)

/-- A function that chooses between cases ends as the code of the first one that fits. -/
theorem Item.call?_cases {front parameters result subject : Tokens} {modifiers function owner : String}
    {arguments : List Value} {locals : Locals} {value : Value} {arms : List (Tokens × Tokens)}
    (chooses : Chooses parameters subject arguments locals value)
    (whole : ∀ arm ∈ arms, Whole arm.1 ∧ Whole arm.2) (calls : Calls) :
    (Item.function front modifiers (.plain function) parameters result (cases subject arms)).call? calls owner
        function arguments =
      (select? owner value arms).bind fun chosen => outcome? calls owner (chosen.1 ++ locals) chosen.2 := by
  rw [Item.call?, if_pos ⟨rfl, chooses.length_eq⟩, chooses.locals_eq, cases, words_singleton (by decide),
    List.append_assoc, List.singleton_append, choose?, chooses.ended]
  simp only [chooses.chosen, arms?_cases whole, Option.bind_eq_bind, Option.bind_some]

/-- A table by what is written down, with a last case for what it does not list. -/
theorem Item.call?_table {α : Type} {entries : List α} {key answer : α → Tokens} {own : α → Atom}
    {missing front parameters result subject : Tokens} {modifiers function owner : String}
    {arguments : List Value} {locals : Locals} {asked : Atom}
    (chooses : Chooses parameters subject arguments locals (.atom asked))
    (each : ∀ e ∈ entries, Denotes owner (key e) (own e)) (whole : ∀ e ∈ entries, Whole (answer e))
    (last : Whole missing) (calls : Calls) :
    (Item.function front modifiers (.plain function) parameters result (cases subject
        (entries.map (fun e => (key e, answer e)) ++ [(words "_", missing)]))).call? calls owner function
        arguments =
      outcome? calls owner locals (((entries.find? fun e => own e == asked).map answer).getD missing) := by
  have underscore : Whole (words "_") := by
    rw [words_eq]
    exact whole_iff.mpr rfl
  rw [Item.call?_cases chooses, select?_atoms each, select?_any]
  · cases entries.find? fun e => own e == asked <;> rfl
  · rw [List.forall_mem_append, List.forall_mem_map, List.forall_mem_singleton]
    exact ⟨fun e member => ⟨(each e member).whole, whole e member⟩, underscore, last⟩

/-- A table of all variants of a type. -/
theorem Item.call?_variants {α : Type} {entries : List α} {key answer : α → Tokens} {fits : α → Bool}
    {front parameters result subject : Tokens} {modifiers function owner : String} {arguments : List Value}
    {locals bound : Locals} {value : Value} (chooses : Chooses parameters subject arguments locals value)
    (each : ∀ e ∈ entries, ∃ pattern, pattern? owner (key e) = some pattern ∧
      pattern.match? value = if fits e then some bound else none)
    (whole : ∀ e ∈ entries, Whole (key e) ∧ Whole (answer e)) (calls : Calls) :
    (Item.function front modifiers (.plain function) parameters result
        (cases subject (entries.map fun e => (key e, answer e)))).call? calls owner function arguments =
      (entries.find? fits).bind fun e => outcome? calls owner (bound ++ locals) (answer e) := by
  have chosen : select? owner value (entries.map (fun e => (key e, answer e)) ++ []) = _ :=
    select?_table each []
  rw [List.append_nil] at chosen
  rw [Item.call?_cases chooses (List.forall_mem_map.mpr whole), chosen]
  cases entries.find? fits <;> rfl

/-! ## Functions among items -/

namespace Code

variable {items items' : List Item} {calls : Calls} {function : String} {arguments : List Value}

/-- A call of the function that is among the items ends so. Outside of implementations `Self` stands for
nothing else. -/
def CallEnds (items : List Item) (calls : Calls) (function : String) (arguments : List Value)
    (outcome : Outcome) : Prop :=
  ∃ item ∈ items, item.call? calls "Self" function arguments = some outcome

/-- A call of the function that is among those implemented for the type ends so. -/
def CallOnEnds (items : List Item) (calls : Calls) (type function : String) (arguments : List Value)
    (outcome : Outcome) : Prop :=
  ∃ item : Item, .implementation (words type) item.tokens ∈ items ∧
    item.call? calls type function arguments = some outcome

/-- A call ends with something that stands for the value, or with the same error. -/
def CallReturns {α : Type} (items : List Item) (calls : Calls) (function : String) (arguments : List Value)
    (stands : α → Value → Prop) : Except FrameError α → Prop
  | .ok a => ∃ value, stands a value ∧ CallEnds items calls function arguments (.result (.ok value))
  | .error e => CallEnds items calls function arguments (.result (.error e))

theorem CallEnds.mono {outcome : Outcome} (h : CallEnds items calls function arguments outcome)
    (more : items ⊆ items') : CallEnds items' calls function arguments outcome :=
  h.imp fun _ => And.imp_left fun member => more member

theorem CallOnEnds.mono {type : String} {outcome : Outcome}
    (h : CallOnEnds items calls type function arguments outcome) (more : items ⊆ items') :
    CallOnEnds items' calls type function arguments outcome :=
  h.imp fun _ => And.imp_left fun member => more member

theorem CallReturns.mono {α : Type} {stands : α → Value → Prop} {result : Except FrameError α}
    (h : CallReturns items calls function arguments stands result) (more : items ⊆ items') :
    CallReturns items' calls function arguments stands result := by
  cases result with
  | ok a => exact h.imp fun _ => And.imp_right fun ends => ends.mono more
  | error e => exact CallEnds.mono h more

end Code

end WireProtocol
