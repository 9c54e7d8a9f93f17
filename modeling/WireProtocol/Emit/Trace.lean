import WireProtocol.Emit.Error
import WireProtocol.Version

/-!
# Traces of code generation

* `Event`: a step of a generation that it reports.
* `Gen`: a generation that may fail. What it has reported stays reported.
-/

namespace WireProtocol

/-- A step of a generation. -/
inductive Event where
  | started (version : Version)
  | declaringClass (name : String) (methods : Nat)
  | generatingMethod (name : String)
  | generatingProperties (name : String) (properties : Nat)
  | generated (artifact : String) (classes constants : Nat)
deriving DecidableEq, Repr

/-- A generation: it reports events in order and ends with a value or an error. -/
abbrev Gen (α : Type) := ExceptT GenerateError (StateM (List Event)) α

namespace Gen

/-- An event behind those reported so far. -/
def report (event : Event) : Gen Unit :=
  modify (· ++ [event])

/-- A step that reports nothing. -/
def ofExcept {α : Type} (result : Except GenerateError α) : Gen α :=
  fun events => (result, events)

/-- A question about the description. -/
def ask {α : Type} (result : Except DescriptionError α) : Gen α :=
  ofExcept (result.mapError .description)

/-- The outcome of a generation and what it reported, in order. -/
def run {α : Type} (gen : Gen α) : Except GenerateError α × List Event :=
  ExceptT.run gen []

end Gen

end WireProtocol
