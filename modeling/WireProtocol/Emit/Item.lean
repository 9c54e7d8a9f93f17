import WireProtocol.Emit.Token

/-!
# Items of generated code

* `Item`: a definition at the top level of generated code.
* `Item.tokens`: its tokens.
-/

namespace WireProtocol

/-- A definition at the top level of generated code. What comes in front of it (documentation and
other attributes) is `front`. -/
inductive Item where
  | constant (front : Tokens) (name : Ident) (type value : Tokens)
  | record (front : Tokens) (name : Ident) (fields : List (Ident × Tokens))
  | choice (front : Tokens) (name : Ident) (variants : List (Ident × Option Ident))
  | implementation (head : Tokens) (content : Tokens)
  | function (front : Tokens) (modifiers : String) (name : Ident) (parameters result body : Tokens)

namespace Item

open Tokens

/-! ## What comes in front -/

/-- An attribute. -/
def mark (content : Tokens) : Tokens :=
  words "#" ++ brackets content

/-- A line of documentation that is the same in all generated code. -/
def rawDoc (line : String) : Tokens :=
  mark (words "doc =" ++ [.word ("r\"" ++ line ++ "\"")])

/-- A line of documentation that depends on the description. -/
def doc (line : String) : Tokens :=
  mark (words "doc =" ++ Literal.text line)

/-- The properties of a type that are derived from those of its parts. -/
def derive (properties : List String) : Tokens :=
  mark (words "derive" ++ parens (commaSeparated (properties.map words)))

/-- A value that must not be dropped unseen. -/
def mustUse : Tokens :=
  mark (words "must_use")

/-! ## Tokens -/

/-- A field of a record. -/
def fieldTokens (field : Ident × Tokens) : Tokens :=
  words "pub" ++ name field.1 ++ words ":" ++ field.2 ++ words ","

/-- A variant of a choice, which may carry a record. -/
def variantTokens (variant : Ident × Option Ident) : Tokens :=
  name variant.1 ++ (variant.2.elim [] fun record => parens (name record)) ++ words ","

/-- The tokens of an item. -/
def tokens : Item → Tokens
  | constant front id type value =>
    front ++ words "pub const" ++ name id ++ words ":" ++ type ++ words "=" ++ value ++ words ";"
  | record front id fields =>
    front ++ words "pub struct" ++ name id ++ braces (fields.flatMap fieldTokens)
  | choice front id variants =>
    front ++ words "pub enum" ++ name id ++ braces (variants.flatMap variantTokens)
  | implementation head content => words "impl" ++ head ++ braces content
  | function front modifiers id parameters result body =>
    front ++ words modifiers ++ name id ++ parens parameters ++ words "->" ++ result ++ braces body

end Item

/-! ## Common pieces -/

namespace Tokens

/-- The outcome of something that may fail at run time. -/
def resultOf (value : Tokens) : Tokens :=
  words "Result <" ++ value ++ words "," ++ runtime "FrameError" ++ words ">"

/-- The cases of a value. Each consists of a pattern and what it stands for. -/
def cases (subject : Tokens) (arms : List (Tokens × Tokens)) : Tokens :=
  words "match" ++ subject ++
    braces (arms.flatMap fun arm => arm.1 ++ words "=>" ++ arm.2 ++ words ",")

/-- A member of a type. -/
def member (type : String) (id : Ident) : Tokens :=
  words (type ++ " ::") ++ name id

/-- The parameter that holds a payload. -/
def payloadParameter : Tokens :=
  words "payload : &" ++ brackets (words "u8")

/-- A string of octets as a type. -/
def octetsType : Tokens :=
  words "Vec < u8 >"

/-- The type of the values of a wire type. -/
def typeOf : WireType → Tokens
  | .bit => words "bool"
  | .octet => words "u8"
  | .short => words "u16"
  | .long => words "u32"
  | .longlong | .timestamp => words "u64"
  | .shortstr | .longstr => octetsType
  | .table => runtime "FieldTable"

end Tokens

end WireProtocol
