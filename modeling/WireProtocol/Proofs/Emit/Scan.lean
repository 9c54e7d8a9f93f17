import WireProtocol.Emit.Token
import WireProtocol.Proofs.Text.Spaces

/-!
# Reading generated code

What code does is read off its tokens, wherever they come from.

* `Tokens.search`: what is found at all places of code, in groups too, in order.
* `Tokens.calls`, `Tokens.bindings`, `Tokens.initializers`, `Tokens.conditionals`: the calls of methods of
  an object, the locals that are defined, the fields that are given values, and the conditional blocks.
* `Tokens.selections`, `Tokens.masks`, `Tokens.shifts`, `Tokens.settings`: the fields of an object that are
  used, the masks that are applied to a value, the bits that are moved to their places, and the flags that
  are set.
* `Tokens.Scans`: what is found in code whatever follows it. Pieces of code can be searched one by one.
* `Tokens.words_eq`, `Tokens.words_singleton`: words are told apart by their characters.
-/

namespace WireProtocol

namespace Token

/-- The spelling of a name, of a keyword, of a sign or of a literal. -/
@[simp]
def spelling? : Token → Option String
  | word text => some text
  | ident id => some id.text
  | runtime | group _ _ => none

/-- The token is a keyword or a sign with that spelling. -/
@[simp]
def isWord (text : String) : Token → Bool
  | word own => own == text
  | ident _ | runtime | group _ _ => false

/-- The token has that spelling, whether it is a name or not. -/
@[simp]
def isSpelled (text : String) : Token → Bool
  | word own => own == text
  | ident id => id.text == text
  | runtime | group _ _ => false

end Token

namespace Tokens

/-! ## Places in code -/

variable {α β : Type}

/-- What there is behind a token that passes a test. -/
@[simp]
def following (test : Token → Bool) (next : Tokens → Option α) : Tokens → Option α
  | token :: rest => if test token then next rest else none
  | [] => none

mutual

/-- What is found at the places of a group. -/
@[simp]
def searchGroup (at? : Tokens → Option α) : Token → List α
  | .group _ content => search at? content
  | .word _ | .ident _ | .runtime => []

/-- What is found at the places of code, in groups too, in order. -/
@[simp]
def search (at? : Tokens → Option α) : List Token → List α
  | [] => []
  | token :: rest => (at? (token :: rest)).toList ++ searchGroup at? token ++ search at? rest

end

/-- The name that the code begins with. -/
@[simp]
def front? (tokens : Tokens) : Option String :=
  tokens.head?.bind (·.spelling?)

/-- The call of a method of the object: the name of the method, and the arguments. -/
def callAt? (object : String) (tokens : Tokens) : Option (String × Tokens) :=
  following (·.isSpelled object) (following (·.isWord ".") fun
    | name :: .group .parenthesis arguments :: _ => name.spelling?.map (·, arguments)
    | _ => none) tokens

/-- The definition of a local: its name, and its value. -/
def bindingAt? (tokens : Tokens) : Option (String × Tokens) :=
  following (·.isWord "let") (fun
    | [] => none
    | first :: behind =>
      let (name, behind) := if first.isWord "mut" then (front? behind, behind.tail)
        else (first.spelling?, behind)
      following (·.isWord "=")
        (fun value => name.map (·, value.takeWhile fun token => !token.isWord ";")) behind) tokens

/-- An identifier that is given a value as a field of a record, and the value. -/
def initializerAt? : Tokens → Option (String × String)
  | .ident field :: rest => following (·.isWord ":") (fun
    | value :: rest => following (·.isWord ",") (fun _ => value.spelling?.map (field.text, ·)) rest
    | [] => none) rest
  | _ => none

/-- A field of the object. -/
def selectionAt? (object : String) (tokens : Tokens) : Option String :=
  following (·.isSpelled object) (following (·.isWord ".") front?) tokens

/-- The mask that is applied to a value. -/
def maskAt? (value : String) (tokens : Tokens) : Option String :=
  following (·.isSpelled value) (following (·.isWord "&") front?) tokens

/-- The flags that are set in a value. -/
def settingAt? (value : String) (tokens : Tokens) : Option String :=
  following (·.isSpelled value) (following (·.isWord "|=") front?) tokens

/-- How far a value is shifted to the left. -/
def shiftAt? (tokens : Tokens) : Option String :=
  following (·.isWord "<<") front? tokens

/-- The code up to the next block, and the block. -/
@[simp]
def untilBlock? : Tokens → Option (Tokens × Tokens)
  | .group .brace block :: _ => some ([], block)
  | token :: rest => (untilBlock? rest).map fun (condition, block) => (token :: condition, block)
  | [] => none

/-- A block that is executed under a condition: the condition, and the block. -/
def conditionalAt? (tokens : Tokens) : Option (Tokens × Tokens) :=
  following (·.isWord "if") untilBlock? tokens

/-! ## What is found -/

/-- The calls of methods of the object, in order. -/
def calls (object : String) (tokens : Tokens) : List (String × Tokens) :=
  search (callAt? object) tokens

/-- The locals that are defined, in order. -/
def bindings (tokens : Tokens) : List (String × Tokens) :=
  search bindingAt? tokens

/-- The fields that are given values, in order. -/
def initializers (tokens : Tokens) : List (String × String) :=
  search initializerAt? tokens

/-- The fields of the object that are used, in order. -/
def selections (object : String) (tokens : Tokens) : List String :=
  search (selectionAt? object) tokens

/-- The masks that are applied to the value, in order. -/
def masks (value : String) (tokens : Tokens) : List String :=
  search (maskAt? value) tokens

/-- The flags that are set in the value, in order. -/
def settings (value : String) (tokens : Tokens) : List String :=
  search (settingAt? value) tokens

/-- How far values are shifted to the left, in order. -/
def shifts (tokens : Tokens) : List String :=
  search shiftAt? tokens

/-- The code between the signs of a kind. -/
def operands (sign : String) (tokens : Tokens) : List Tokens :=
  tokens.splitOnP (·.isWord sign)

/-- The conditional blocks, in order. -/
def conditionals (tokens : Tokens) : List (Tokens × Tokens) :=
  search conditionalAt? tokens

/-! ## Pieces of code -/

/-- That is found in the code, whatever follows it. -/
def Scans (at? : Tokens → Option α) (tokens : Tokens) (found : List α) : Prop :=
  ∀ rest, search at? (tokens ++ rest) = found ++ search at? rest

namespace Scans

variable {at? : Tokens → Option α} {first second : Tokens} {found found' : List α}

theorem search_eq (h : Scans at? first found) : search at? first = found := by
  have alone := h []
  simpa using alone

theorem nil : Scans at? [] [] := by
  intro rest
  simp

theorem append (h : Scans at? first found) (h' : Scans at? second found') :
    Scans at? (first ++ second) (found ++ found') := by
  intro rest
  rw [List.append_assoc, h, h', List.append_assoc]

/-- Pieces of code are searched one by one. -/
theorem flatMap {code : β → Tokens} {what : β → List α} {parts : List β}
    (each : ∀ part ∈ parts, Scans at? (code part) (what part)) :
    Scans at? (parts.flatMap code) (parts.flatMap what) := by
  induction parts with
  | nil => exact nil
  | cons part parts ih =>
    rw [List.forall_mem_cons] at each
    exact each.1.append (ih each.2)

/-- Pieces of code with signs between them are searched one by one. -/
theorem intercalate {code : β → Tokens} {what : β → List α} {separator : Tokens} {parts : List β}
    (between : Scans at? separator []) (each : ∀ part ∈ parts, Scans at? (code part) (what part)) :
    Scans at? (separator.intercalate (parts.map code)) (parts.flatMap what) := by
  induction parts with
  | nil => exact nil
  | cons part parts ih =>
    rw [List.forall_mem_cons] at each
    cases parts with
    | nil => simpa using each.1
    | cons next parts => simpa using each.1.append (between.append (ih each.2))

end Scans

/-- The first operand ends at the first sign. -/
theorem operands_cons {sign : String} {first rest : Tokens} (own : ∀ token ∈ first, token.isWord sign = false) :
    operands sign (first ++ .word sign :: rest) = first :: operands sign rest := by
  have here : Token.isWord sign (.word sign) = true := beq_self_eq_true sign
  rw [operands, List.splitOnP_append_cons_of_forall_mem own _ here, operands]

theorem operands_singleton {sign : String} {only : Tokens} (own : ∀ token ∈ only, token.isWord sign = false) :
    operands sign only = [only] :=
  List.splitOnP_eq_singleton own

/-- Code is divided at the signs between its parts, which have none of their own. -/
theorem operands_intercalate {sign : String} {parts : List Tokens} (some : parts ≠ [])
    (own : ∀ part ∈ parts, ∀ token ∈ part, token.isWord sign = false) :
    operands sign (([Token.word sign] : Tokens).intercalate parts) = parts := by
  induction parts with
  | nil => exact (some rfl).elim
  | cons part parts ih =>
    rw [List.forall_mem_cons] at own
    cases parts with
    | nil => rw [List.intercalate_singleton, operands_singleton own.1]
    | cons next parts =>
      rw [List.intercalate_cons_cons, List.append_assoc, List.singleton_append, operands_cons own.1,
        ih (List.cons_ne_nil next parts) own.2]

/-! ## Words -/

theorem words_eq (text : String) :
    words text = (text.toList.splitOn ' ').map fun word => .word (String.ofList word) := by
  rw [words, String.splitOn_space, List.map_map]
  rfl

/-- A text without spaces is one word. -/
theorem words_singleton {text : String} (whole : ' ' ∉ text.toList) : words text = [.word text] := by
  have own : ∀ c ∈ text.toList, (c == ' ') = false := by
    intro c inside
    rw [beq_eq_false_iff_ne]
    rintro rfl
    exact whole inside
  rw [words_eq, List.splitOn, List.splitOnP_eq_singleton own, List.map_singleton, String.ofList_toList]

end Tokens

end WireProtocol
