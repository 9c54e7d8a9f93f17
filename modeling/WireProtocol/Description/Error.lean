import WireProtocol.Json.Value

/-!
# Errors of descriptions

* `DescriptionError`: why a description cannot be loaded, extended or resolved.
* `DescriptionError.message`: its text. A document that is not a description at all has none, since
  there is no one place to name.
-/

namespace WireProtocol

/-- What can be wrong with a description. -/
inductive DescriptionError where
  | malformed
  | missingDomain (field : String)
  | tooManyProperties (className : String) (count : Nat)
  | unknownDomain (name : String)
  | unknownErrorClass (constant tag : String)
  | unsupportedDefault (field : String) (value : Json.Value)

namespace DescriptionError

/-- The text of the error, if it has one. -/
def message? : DescriptionError → Option String
  | malformed => none
  | missingDomain field => some s!"field '{field}' declares neither a type nor a domain"
  | tooManyProperties className count =>
    some s!"class '{className}' declares {count} properties, at most 15 fit the presence bitmap"
  | unknownDomain name => some s!"unknown domain '{name}'"
  | unknownErrorClass constant tag => some s!"unknown error class '{tag}' on constant '{constant}'"
  | unsupportedDefault field value =>
    some s!"unsupported default value {value.compact} for field '{field}'"

end DescriptionError

end WireProtocol
