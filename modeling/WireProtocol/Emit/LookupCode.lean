import WireProtocol.Codec.Exception
import WireProtocol.Emit.Item
import WireProtocol.Emit.Trace

/-!
# Code for looking things up

* `LookupCode.items`: the version, the classes by number and by name, and the exceptions.
-/

namespace WireProtocol

namespace LookupCode

open Tokens

/-- The version. -/
def version : Item :=
  .function Item.mustUse "pub const fn" (.plain "version") []
    (parens (words "u8 , u8 , u8")) (words "VERSION")

/-- The classes by number and by name. -/
def classes (d : Description) : List Item :=
  let ok (value : Tokens) : Tokens := words "Ok" ++ parens value
  let names := d.classes.map fun c =>
    (Literal.number c.id.toNat "u16", ok (Literal.text c.name))
  let ids := d.classes.map fun c =>
    (Literal.text c.name, ok (Literal.number c.id.toNat "u16"))
  let unknownId := words "Err" ++
    parens (runtime "FrameError :: UnknownClassId" ++ parens (words "class_id"))
  let unknownName := words "Err" ++
    parens (runtime "FrameError :: UnknownClassName" ++
      parens (words "name . to_string" ++ parens []))
  [ .function [] "pub fn" (.plain "lookup_class_name") (words "class_id : u16")
      (resultOf (words "& 'static str"))
      (cases (words "class_id") (names ++ [(words "_", unknownId)])),
    .function [] "pub fn" (.plain "class_id") (words "name : & str")
      (resultOf (words "u16"))
      (cases (words "name") (ids ++ [(words "_", unknownName)])) ]

/-- What is known about an exception, as code. -/
def infoTokens (info : ExceptionInfo) : Tokens :=
  runtime "ExceptionInfo :: new" ++ parens (commaSeparated
    [Literal.bool info.hard, Literal.number info.code.toNat "u16", Literal.text info.name])

/-- Something that is there. -/
def someTokens (value : Tokens) : Tokens :=
  words "Some" ++ parens value

/-- The exceptions by code and by name, and all constants by code. -/
def exceptions (table : ExceptionTable) : List Item :=
  let missing := [(words "_", words "None")]
  let infos := table.byCode.map fun info =>
    (Literal.number info.code.toNat "u16", infoTokens info)
  let standIn := runtime "unknown_exception" ++
    parens (words "code ," ++ infoTokens table.fallback ++ words ",")
  let codes := table.byName.map fun info =>
    (Literal.text info.name, someTokens (Literal.number info.code.toNat "u16"))
  let names := table.names.map fun (code, text) =>
    (Literal.number code.toNat "u16", someTokens (Literal.text text))
  [ .function
      (Item.rawDoc " Classify an exception reply code." ++ Item.rawDoc "" ++
        Item.doc (" Unknown codes are reported and classified as `" ++ table.fallback.name ++
          "`.") ++ Item.mustUse)
      "pub fn" (.plain "lookup_exception") (words "code : u16") (runtime "ExceptionInfo")
      (cases (words "code") (infos ++ [(words "_", standIn)])),
    .function Item.mustUse "pub fn" (.plain "exception_code") (words "name : & str")
      (words "Option < u16 >") (cases (words "name") (codes ++ missing)),
    .function (Item.rawDoc " Display name of the constant declared with `code`." ++ Item.mustUse)
      "pub const fn" (.plain "exception_name") (words "code : u16")
      (words "Option < & 'static str >") (cases (words "code") (names ++ missing)) ]

/-- The code for looking things up, in order. -/
def items (d : Description) : Except GenerateError (List Item) := do
  let table ← (ExceptionTable.ofConstants d.constants).mapError GenerateError.ofException
  return [version] ++ classes d ++ exceptions table

end LookupCode

end WireProtocol
