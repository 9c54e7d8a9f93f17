import WireProtocol.Json.Token

/-!
# Reading JSON documents

A document is read by an automaton with a stack, one token at a time. Nesting is not limited here.

* `Json.State`: what may come next, and the arrays and objects that are still open.
* `Json.State.step`: the effect of a token.
* `Json.parse?`: the document that a text spells.
-/

namespace WireProtocol

namespace Json

/-- An array or object that is still open, with what it holds so far, the newest first, and for an
object the name whose value is being read. -/
inductive Frame where
  | array (items : List Tree)
  | object (members : List (Option String × Tree)) (name : Option String)

/-- What may come next: a value; the first item of an array or its end; the first name of an object
or its end; a later name; the colon behind a name; or what may follow a finished value. -/
inductive State where
  | value (stack : List Frame)
  | firstItem (stack : List Frame)
  | firstName (stack : List Frame)
  | name (members : List (Option String × Tree)) (stack : List Frame)
  | colon (members : List (Option String × Tree)) (name : Option String) (stack : List Frame)
  | after (tree : Tree) (stack : List Frame)

namespace State

/-- The effect of a token where a value may begin. -/
def begin (stack : List Frame) : Token → Option State
  | .null => some (after .null stack)
  | .bool b => some (after (.bool b) stack)
  | .number literal => some (after (.number literal) stack)
  | .text t => some (after (.text t) stack)
  | .openArray => some (firstItem stack)
  | .openObject => some (firstName stack)
  | .closeArray | .closeObject | .comma | .colon => none

/-- The effect of a token. -/
def step : State → Token → Option State
  | value stack, token => begin stack token
  | firstItem stack, .closeArray => some (after (.array []) stack)
  | firstItem stack, token => begin (.array [] :: stack) token
  | firstName stack, .closeObject => some (after (.object []) stack)
  | firstName stack, .text n => some (colon [] n stack)
  | name members stack, .text n => some (colon members n stack)
  | colon members n stack, .colon => some (value (.object members n :: stack))
  | after tree (.array items :: stack), .comma => some (value (.array (tree :: items) :: stack))
  | after tree (.array items :: stack), .closeArray =>
    some (after (.array (tree :: items).reverse) stack)
  | after tree (.object members n :: stack), .comma => some (name ((n, tree) :: members) stack)
  | after tree (.object members n :: stack), .closeObject =>
    some (after (.object ((n, tree) :: members).reverse) stack)
  | _, _ => none

/-- The document of a finished state. -/
def finished? : State → Option Tree
  | after tree [] => some tree
  | _ => none

end State

/-- The document that a text spells, if it spells exactly one. -/
def parse? (text : String) : Option Tree := do
  let tokens ← tokens? text.toList
  let state ← tokens.foldlM State.step (.value [])
  state.finished?

end Json

end WireProtocol
