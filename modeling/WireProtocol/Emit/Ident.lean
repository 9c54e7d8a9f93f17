import WireProtocol.Description.Naming
import WireProtocol.Emit.Error
import WireProtocol.Text.Words

/-!
# Identifiers of generated code

* `Ident`: an identifier, plain or in the raw form that lets a keyword serve as a name.
* `Ident.ofField`, `Ident.ofType`, `Ident.ofFunction`, `Ident.ofConstant`: the identifiers that names
  of a description become.
-/

namespace WireProtocol

/-- An identifier. -/
inductive Ident where
  | plain (name : String)
  | raw (name : String)
deriving DecidableEq, Repr

namespace Ident

/-- The identifier as it stands in code. -/
def text : Ident → String
  | plain name => name
  | raw name => "r#" ++ name

/-- The identifier without the mark of the raw form. -/
def bare : Ident → String
  | plain name => name
  | raw name => name

/-- The keywords that no mark turns into a name. They take an underscore instead. -/
def fixedKeywords : List String :=
  ["crate", "self", "Self", "super"]

/-- The keywords that the raw form turns into names. -/
def keywords : List String :=
  ["abstract", "as", "async", "await", "become", "box", "break", "const", "continue", "do", "dyn",
    "else", "enum", "extern", "false", "final", "fn", "for", "gen", "if", "impl", "in", "let",
    "loop", "macro", "match", "mod", "move", "mut", "override", "priv", "pub", "ref", "return",
    "static", "struct", "trait", "true", "try", "type", "typeof", "unsafe", "unsized", "use",
    "virtual", "where", "while", "yield"]

/-- Whether a character may stand anywhere but at the front. -/
def isNameChar (c : Char) : Bool :=
  c.isAlphanum || c == '_'

/-- Whether a spelling is an identifier in ASCII: letters, digits and underscores, with no digit in
front, and not a lone underscore. -/
def isName (spelling : String) : Bool :=
  match spelling.toList with
  | [] => false
  | first :: rest =>
    (first.isAlpha || (first == '_' && !rest.isEmpty)) && rest.all isNameChar

/-- The identifier of a spelling. The error shows the name that it was made from. -/
def ofSpelling (spelling source : String) : Except GenerateError Ident :=
  if !isName spelling then .error (.invalidName source)
  else if fixedKeywords.contains spelling then .ok (plain (spelling ++ "_"))
  else if keywords.contains spelling then .ok (raw spelling)
  else .ok (plain spelling)

/-- The identifier of a field. -/
def ofField (name : String) : Except GenerateError Ident :=
  ofSpelling (Naming.fieldName name) name

/-- The parts of a name, with a space between any two. -/
def joinParts (parts : List String) : String :=
  " ".intercalate parts

/-- The identifier of a type. -/
def ofType (parts : List String) : Except GenerateError Ident :=
  ofSpelling (Words.pascal (joinParts parts)) (joinParts parts)

/-- The identifier of a function. -/
def ofFunction (parts : List String) : Except GenerateError Ident :=
  ofSpelling (Naming.fieldName (joinParts parts)) (joinParts parts)

/-- The identifier of a constant. -/
def ofConstant (name : String) : Except GenerateError Ident :=
  ofSpelling (Naming.constantName name) name

end Ident

end WireProtocol
