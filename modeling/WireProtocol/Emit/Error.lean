import WireProtocol.Codec.Exception
import WireProtocol.Description.Error
import WireProtocol.Description.Field
import WireProtocol.WireType

/-!
# Errors of code generation

* `GenerateError`: why no code is generated.
* `GenerateError.message?`: its text, where the cause lies in the description or the settings.
-/

namespace WireProtocol

/-- Why no code is generated. -/
inductive GenerateError where
  | config
  | constantOutOfRange (name : String) (code : UInt32)
  | defaultMismatch (owner field : String) (default : DefaultValue) (ty : WireType)
  | invalidName (name : String)
  | io
  | missingFallback
  | runtimePath (path : String)
  | description (error : DescriptionError)

namespace GenerateError

/-- What is wrong with the exceptions of a description. -/
def ofException : ExceptionError → GenerateError
  | .missingFallback => missingFallback
  | .codeOutOfRange name code => constantOutOfRange name code

/-- The text of the error, if it has one. -/
def message? : GenerateError → Option String
  | config | io => none
  | constantOutOfRange name code =>
    some s!"exception constant '{name}' has code {code}, reply codes are 16-bit"
  | defaultMismatch owner field default ty =>
    some (s!"default {default.display} of field '{field}' in {owner} does not fit wire type " ++
      ty.name)
  | invalidName name => some s!"'{name}' cannot be turned into a Rust identifier"
  | missingFallback =>
    some "no hard-error constant named 'internal-error' to classify unknown exception codes"
  | runtimePath path => some s!"invalid runtime crate path '{path}'"
  | description error => error.message?

end GenerateError

end WireProtocol
